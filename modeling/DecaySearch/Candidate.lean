-- Decay candidates: combinations of tracks and what the selections have found
-- out about them, hypothesis by hypothesis.
import DecaySearch.Hypothesis
import DecaySearch.Event
import DecaySearch.SelectionMode

namespace DecaySearch

/-! ## Mass matches -/

/-- Which of the two mass assignments of a hypothesis lie in its mass window. -/
inductive PermutationMatch
  /-- Neither of them, or the mass was never tested. -/
  | none
  | first
  | second
  /-- Both of them, or there is no mass window. -/
  | both
  deriving DecidableEq

namespace PermutationMatch

def ofVerdicts : Bool → Bool → PermutationMatch
  | false, false => .none
  | true, false => .first
  | false, true => .second
  | true, true => .both

def any (m : PermutationMatch) : Bool := m ≠ .none

def code : PermutationMatch → Nat
  | .none => 0
  | .first => 1
  | .second => 2
  | .both => 3

def ofCode? : Nat → Option PermutationMatch
  | 0 => some .none
  | 1 => some .first
  | 2 => some .second
  | 3 => some .both
  | _ => Option.none

def name : PermutationMatch → String
  | .none => "None"
  | .first => "Perm0"
  | .second => "Perm1"
  | .both => "Both"

end PermutationMatch

/-! ## Cut stages -/

/-- The cuts that a candidate goes through, in their order. -/
inductive CutStage
  /-- The pT before the fit lies in a bin. -/
  | preFitPt
  /-- The mass lies in the window. -/
  | mass
  /-- The product of the impact parameters is small enough (two prongs only). -/
  | impactParameterProduct
  /-- The pT after the fit lies in a bin. -/
  | postFitPt
  /-- The pointing angle is small enough. -/
  | cosPointingAngle
  /-- The decay length is large enough (three prongs only). -/
  | decayLength
  deriving DecidableEq

namespace CutStage

def all : List CutStage :=
  [.preFitPt, .mass, .impactParameterProduct, .postFitPt, .cosPointingAngle, .decayLength]

def name : CutStage → String
  | .preFitPt => "PreFitPt"
  | .mass => "Mass"
  | .impactParameterProduct => "ImpactParameterProduct"
  | .postFitPt => "PostFitPt"
  | .cosPointingAngle => "CosPointingAngle"
  | .decayLength => "DecayLength"

/-- The bit of a stage in a status byte. -/
def bit : CutStage → Nat
  | .preFitPt => 1
  | .mass => 2
  | .impactParameterProduct => 4
  | .postFitPt => 8
  | .cosPointingAngle => 16
  | .decayLength => 32

end CutStage

/-- Which stages a hypothesis has passed. A stage that was not evaluated, or
does not apply, counts as passed. -/
structure CutStatus where
  preFitPt : Bool
  mass : Bool
  impactParameterProduct : Bool
  postFitPt : Bool
  cosPointingAngle : Bool
  decayLength : Bool
  deriving DecidableEq

namespace CutStatus

def allPassed : CutStatus := ⟨true, true, true, true, true, true⟩

def passed (s : CutStatus) : CutStage → Bool
  | .preFitPt => s.preFitPt
  | .mass => s.mass
  | .impactParameterProduct => s.impactParameterProduct
  | .postFitPt => s.postFitPt
  | .cosPointingAngle => s.cosPointingAngle
  | .decayLength => s.decayLength

def fail (s : CutStatus) : CutStage → CutStatus
  | .preFitPt => { s with preFitPt := false }
  | .mass => { s with mass := false }
  | .impactParameterProduct => { s with impactParameterProduct := false }
  | .postFitPt => { s with postFitPt := false }
  | .cosPointingAngle => { s with cosPointingAngle := false }
  | .decayLength => { s with decayLength := false }

/-- The status as a byte, with the bit of each passed stage. -/
def packed (s : CutStatus) : UInt8 :=
  let bits := CutStage.all.map fun stage => if s.passed stage then stage.bit else 0
  UInt8.ofNat (bits.foldr (· + ·) 0)

theorem passed_fail (s : CutStatus) (stage other : CutStage) :
    (s.fail stage).passed other = (s.passed other && decide (stage ≠ other)) := by
  cases stage <;> cases other <;> simp [fail, passed]

end CutStatus

/-! ## Candidates -/

/-- A vertex that was fitted to tracks. -/
structure FittedVertex where
  position : Position
  /-- The momenta of the tracks at the vertex, in their order. -/
  momenta : List Momentum
  deriving DecidableEq

/-- A combination of tracks under evaluation. What the selections have found out stands in
columns, with one entry for each hypothesis of the group. -/
structure Candidate where
  /-- The tracks, in enumeration order. -/
  prongs : List Track
  arity : Arity
  /-- The hypotheses that are still possible. -/
  hypotheses : HypothesisMask
  /-- The mass assignments that matched. -/
  permutations : List PermutationMatch
  /-- The secondary vertex, once it is fitted. -/
  vertex : Option FittedVertex
  /-- The stages that are passed. -/
  status : List CutStatus
  deriving DecidableEq

structure CandidateRow where
  /-- The identities of the tracks, in enumeration order. -/
  tracks : List TrackId
  hypotheses : HypothesisMask
  /-- The status of each hypothesis, in debug mode only. -/
  cutStatus : Option (List UInt8)
  deriving DecidableEq

namespace CandidateRow

/-- The fields of a row: the tracks, the mask and the status bytes. -/
def fields (r : CandidateRow) : List String :=
  r.tracks.map (fun id => toString id.value) ++ [r.hypotheses.text] ++
    (r.cutStatus.getD []).map Number.hexByte

def text (r : CandidateRow) : String := "\t".intercalate r.fields

end CandidateRow

namespace Candidate

/-- Forms a candidate that every enabled hypothesis of a group may explain. -/
def make (group : HypothesisGroup) (prongs : List Track) : Except Fault Candidate :=
  if prongs.length ≠ group.arity.prongs then .error .wrongProngCount
  else if !group.arity.acceptsCharges (prongs.map (·.sign)) then .error .wrongCharges
  else do
    let hypotheses ← group.makeMask
    pure
      { prongs
        arity := group.arity
        hypotheses
        permutations := List.replicate group.size .none
        vertex := none
        status := List.replicate group.size .allPassed }

def momenta (c : Candidate) : List Momentum := c.prongs.map (·.momentum)

def pt (c : Candidate) : Float := Kinematics.pt (Kinematics.totalMomentum c.momenta)

def toRow (c : Candidate) (mode : SelectionMode) : CandidateRow :=
  { tracks := c.prongs.map (·.id)
    hypotheses := c.hypotheses
    cutStatus := if mode.isDebug then some (c.status.map (·.packed)) else none }

end Candidate

/-! ## Steps of the selections -/

/-- Changes the entry of a column at a bit. The column must have one. -/
def changeAt {α : Type} (column : List α) (bit : Nat) (change : α → α) : Except Fault (List α) :=
  match column[bit]? with
  | none => .error (.outOfBounds column.length bit)
  | some a => .ok (column.set bit (change a))

namespace Candidate

/-- Truth that a hypothesis is still possible. The mask must have its bit. -/
def isPossible (c : Candidate) (bit : Nat) : Except Fault Bool := do
  let bit ← HypothesisMask.bit bit
  pure (c.hypotheses.contains bit)

/-- Records that a hypothesis has failed a stage. -/
def reject (c : Candidate) (bit : Nat) (stage : CutStage) : Except Fault Candidate := do
  let bit ← HypothesisMask.bit bit
  let status ← changeAt c.status bit (·.fail stage)
  pure { c with hypotheses := c.hypotheses.remove bit, status }

/-- Records a failure, unless nobody looks at the hypothesis any more. -/
def rejectIf (mode : SelectionMode) (fails : Bool) (c : Candidate) (bit : Nat)
    (stage : CutStage) : Except Fault Candidate := do
  let possible ← c.isPossible bit
  if mode.evaluates possible && fails then c.reject bit stage else pure c

/-- Records which mass assignments of a hypothesis matched. -/
def recordMatch (c : Candidate) (bit : Nat) (matched : PermutationMatch) :
    Except Fault Candidate := do
  let permutations ← changeAt c.permutations bit fun _ => matched
  pure { c with permutations }

/-- Makes sure that a candidate is tested against hypotheses of its own arity. -/
def ensureArity (c : Candidate) (group : HypothesisGroup) : Except Fault Unit :=
  if c.arity = group.arity then .ok () else .error (.arityMismatch group.arity c.arity)

/-- Tests one hypothesis, given with its bit. A disabled hypothesis is left out, and in
production one that has failed. -/
def testOne (mode : SelectionMode)
    (test : DecayHypothesis → Nat → Candidate → Except Fault Candidate) (c : Candidate)
    (h : DecayHypothesis) (bit : Nat) : Except Fault Candidate :=
  if h.enabled then do
    let possible ← c.isPossible bit
    if mode.evaluates possible then test h bit c else pure c
  else pure c

/-- Tests the hypotheses of a group one after the other. -/
def testEach (mode : SelectionMode) (group : HypothesisGroup)
    (test : DecayHypothesis → Nat → Candidate → Except Fault Candidate) (c : Candidate) :
    Except Fault Candidate :=
  group.hypotheses.zipIdx.foldlM (fun c (h, bit) => c.testOne mode test h bit) c

end Candidate

/-! ## One hypothesis of a candidate -/

/-- What a candidate says about one hypothesis. -/
structure Verdict where
  /-- Truth that the hypothesis is still possible. -/
  alive : Bool
  /-- The mass assignments that matched. -/
  matched : PermutationMatch
  status : CutStatus
  deriving DecidableEq

/-- The columns of a candidate, put together hypothesis by hypothesis. -/
def Candidate.verdicts (c : Candidate) : List Verdict :=
  (c.permutations.zip c.status).zipIdx.map fun ((matched, status), bit) =>
    ⟨c.hypotheses.contains bit, matched, status⟩

end DecaySearch
