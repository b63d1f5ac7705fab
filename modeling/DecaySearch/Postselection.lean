-- The cuts after the vertex fit: where the vertex lies and where the fitted
-- momentum points.
import DecaySearch.Candidate

namespace DecaySearch

/-! ## Thresholds -/

/-- The thresholds of one bin that are read after the fit. -/
structure PostFitCuts where
  cosMin : Float
  /-- Only three-prong decays have this cut. -/
  lengthMin : Option Float
  deriving DecidableEq

namespace PostFitCuts

def fallsShort (c : PostFitCuts) (length : Float) : Bool :=
  match c.lengthMin with
  | none => false
  | some least => length < least

end PostFitCuts

/-- Reads the thresholds of a bin that apply after the fit. -/
def DecayHypothesis.postFitCuts (h : DecayHypothesis) (bin : PtBin) :
    Except Fault PostFitCuts := do
  let cosMin ← h.cuts.get bin .cosPointingAngle
  match h.decay.arity with
  | .twoProng => pure ⟨cosMin, none⟩
  | .threeProng =>
    let least ← h.cuts.get bin .decayLength
    pure ⟨cosMin, some least⟩

/-! ## Selection -/

/-- What the cuts after the fit look at. -/
structure PostFitQuantities where
  pt : Float
  cosPointing : Float
  decayLength : Float

def PostFitQuantities.ofVertex (vertex : FittedVertex) (primary : Position) :
    PostFitQuantities :=
  let p := Kinematics.totalMomentum vertex.momenta
  { pt := Kinematics.pt p
    cosPointing := Kinematics.cosPointingAngle primary vertex.position p
    decayLength := Kinematics.decayLength primary vertex.position }

namespace Postselector

/-- Tests one hypothesis. The bin is looked up again, because the fit may have
moved the candidate to another one. An undefined pointing angle fails. -/
def judge (mode : SelectionMode) (q : PostFitQuantities) (h : DecayHypothesis) (bit : Nat)
    (c : Candidate) : Except Fault Candidate :=
  match h.cuts.findBin q.pt with
  | none => c.reject bit .postFitPt
  | some bin => do
    let cuts ← h.postFitCuts bin
    let c ← c.rejectIf mode (!(cuts.cosMin ≤ q.cosPointing)) bit .cosPointingAngle
    c.rejectIf mode (cuts.fallsShort q.decayLength) bit .decayLength

/-- Tests each hypothesis of a fitted candidate. Hypotheses can only be lost. -/
def postselect (mode : SelectionMode) (group : HypothesisGroup) (c : Candidate)
    (primary : Position) : Except Fault Candidate := do
  c.ensureArity group
  match c.vertex with
  | none => .error .unfitted
  | some vertex => c.testEach mode group (judge mode (.ofVertex vertex primary))

end Postselector

end DecaySearch
