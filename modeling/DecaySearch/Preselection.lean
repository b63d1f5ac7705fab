-- The cuts before the vertex fit. They only need the parameters of the tracks:
-- transverse momentum, invariant mass and the product of impact parameters.
import DecaySearch.Candidate

namespace DecaySearch

/-! ## Thresholds -/

/-- The thresholds of one bin that are read before the fit. -/
structure PreFitCuts where
  massMin : Float
  massMax : Float
  /-- Only two-prong decays have this cut. -/
  productMax : Option Float
  deriving DecidableEq

namespace PreFitCuts

/-- Truth that there is a mass window. A negative lower edge or an upper edge
that is not positive disables it. -/
def hasMassWindow (c : PreFitCuts) : Bool := 0 ≤ c.massMin && 0 < c.massMax

/-- Truth that a squared mass lies in the window, which is closed below and
open above. -/
def admitsMass (c : PreFitCuts) (massSquared : Float) : Bool :=
  c.massMin * c.massMin ≤ massSquared && massSquared < c.massMax * c.massMax

def exceedsProduct (c : PreFitCuts) (product : Float) : Bool :=
  match c.productMax with
  | none => false
  | some largest => largest < product

end PreFitCuts

namespace DecayHypothesis

/-- Reads the thresholds of a bin that apply before the fit. -/
def preFitCuts (h : DecayHypothesis) (bin : PtBin) : Except Fault PreFitCuts := do
  let massMin ← h.cuts.get bin .massMin
  let massMax ← h.cuts.get bin .massMax
  match h.decay.arity with
  | .twoProng =>
    let largest ← h.cuts.get bin .impactParameterProduct
    pure ⟨massMin, massMax, some largest⟩
  | .threeProng => pure ⟨massMin, massMax, none⟩

/-- The squared masses of the daughters under both mass assignments. -/
def massesSquared (h : DecayHypothesis) (momenta : List Momentum) :
    Except Fault (Float × Float) := do
  let (first, second) := h.decay.massAssignments
  let underFirst ← Kinematics.assignedMassSquared momenta first
  let underSecond ← Kinematics.assignedMassSquared momenta second
  pure (underFirst, underSecond)

/-- Which mass assignments lie in the mass window. Without a window both do. -/
def massMatch (h : DecayHypothesis) (cuts : PreFitCuts) (momenta : List Momentum) :
    Except Fault PermutationMatch :=
  if cuts.hasMassWindow then
    match h.massesSquared momenta with
    | .error fault => .error fault
    | .ok (first, second) => .ok (.ofVerdicts (cuts.admitsMass first) (cuts.admitsMass second))
  else .ok .both

end DecayHypothesis

/-! ## Selection -/

/-- What the cuts before the fit look at. -/
structure PreFitQuantities where
  /-- The total transverse momentum plus the margin. -/
  pt : Float
  momenta : List Momentum
  /-- The product of the impact parameters of the first two tracks. -/
  product : Float

/-- The cuts before the vertex fit. -/
structure Preselector where
  /-- The margin that is added to the transverse momentum before its bin is
  looked up, because the momenta are not taken at a vertex yet. -/
  ptTolerance : Float
  mode : SelectionMode
  deriving DecidableEq

namespace Preselector

/-- The margin must be a number that is not negative. -/
def make (ptTolerance : Float) (mode : SelectionMode) : Except Fault Preselector :=
  if ptTolerance.isFinite && 0 ≤ ptTolerance then .ok ⟨ptTolerance, mode⟩
  else .error .invalidTolerance

/-- Records the mass match, and the failure if there is none. -/
def judgeMass (matched : PermutationMatch) (c : Candidate) (bit : Nat) :
    Except Fault Candidate := do
  let c ← c.recordMatch bit matched
  if matched.any then pure c else c.reject bit .mass

/-- Tests one hypothesis. Without a bin there is nothing to test against. -/
def judge (mode : SelectionMode) (q : PreFitQuantities) (h : DecayHypothesis) (bit : Nat)
    (c : Candidate) : Except Fault Candidate :=
  match h.cuts.findBin q.pt with
  | none => do
    let c ← c.reject bit .preFitPt
    c.recordMatch bit .none
  | some bin => do
    let cuts ← h.preFitCuts bin
    let matched ← h.massMatch cuts q.momenta
    let c ← judgeMass matched c bit
    c.rejectIf mode (cuts.exceedsProduct q.product) bit .impactParameterProduct

/-- What the cuts look at in a candidate, which has at least two tracks. -/
def quantities (s : Preselector) (c : Candidate) : Except Fault PreFitQuantities :=
  match c.prongs with
  | a :: b :: _ => .ok ⟨c.pt + s.ptTolerance, c.momenta, a.dcaXY * b.dcaXY⟩
  | short => .error (.outOfBounds short.length short.length)

/-- Tests each hypothesis of a candidate. Hypotheses can only be lost. -/
def preselect (s : Preselector) (group : HypothesisGroup) (c : Candidate) :
    Except Fault Candidate := do
  c.ensureArity group
  let q ← s.quantities c
  c.testEach s.mode group (judge s.mode q)

end Preselector

end DecaySearch
