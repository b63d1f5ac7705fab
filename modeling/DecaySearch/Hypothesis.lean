-- Decay hypotheses: channels of the catalogue together with their cuts, and the
-- groups that candidates of one arity are tested against.
import DecaySearch.CutTable
import DecaySearch.HypothesisMask

namespace DecaySearch

/-! ## One hypothesis -/

/-- A decay channel and the cuts that its candidates must pass. -/
structure DecayHypothesis where
  decay : Decay
  /-- Truth that candidates are tested against this hypothesis. -/
  enabled : Bool
  cuts : CutTable
  deriving DecidableEq

namespace DecayHypothesis

/-- Sets up a hypothesis. Its table must have every column that the selection
of its arity reads, enabled or not. -/
def make (decay : Decay) (enabled : Bool) (cuts : CutTable) :
    Except CutTableError DecayHypothesis :=
  match decay.arity.requiredCuts.find? fun v => !cuts.has v with
  | some v => .error (.missingColumn v)
  | none => .ok ⟨decay, enabled, cuts⟩

end DecayHypothesis

/-! ## The hypotheses of one arity -/

/-- The hypotheses of one arity, in the order of their bits. -/
structure HypothesisGroup where
  arity : Arity
  hypotheses : List DecayHypothesis
  deriving DecidableEq

namespace HypothesisGroup

/-- The fault of a hypothesis that stands at a position, if it does not belong
there. -/
def misplaced? (arity : Arity) (h : DecayHypothesis) (position : Nat) : Option Fault :=
  if h.decay.arity ≠ arity then some (.wrongArity h.decay)
  else if h.decay.bit ≠ position then some (.outOfOrder h.decay)
  else none

/-- Groups hypotheses, which must be listed in catalogue order with no gap. -/
def make (arity : Arity) (hypotheses : List DecayHypothesis) : Except Fault HypothesisGroup :=
  if HypothesisMask.capacity < hypotheses.length then .error .tooManyHypotheses
  else
    match hypotheses.zipIdx.findSome? fun (h, i) => misplaced? arity h i with
    | some fault => .error fault
    | none => .ok ⟨arity, hypotheses⟩

def size (g : HypothesisGroup) : Nat := g.hypotheses.length

/-- The mask of the enabled hypotheses, which every candidate starts from. -/
def enabledMask (g : HypothesisGroup) : HypothesisMask :=
  .ofFlags (g.hypotheses.map (·.enabled))

/-- Puts a hypothesis into a mask if it is enabled. The mask must have its bit. -/
def insertEnabled (m : HypothesisMask) (h : DecayHypothesis) (bit : Nat) :
    Except Fault HypothesisMask :=
  if h.enabled then do
    let bit ← HypothesisMask.bit bit
    pure (m.insert bit)
  else pure m

/-- Builds the mask of the enabled hypotheses, bit by bit. -/
def makeMask (g : HypothesisGroup) : Except Fault HypothesisMask :=
  g.hypotheses.zipIdx.foldlM (fun m (h, bit) => insertEnabled m h bit) .empty

end HypothesisGroup

/-! ## All hypotheses -/

structure HypothesisSet where
  twoProng : HypothesisGroup
  threeProng : HypothesisGroup
  deriving DecidableEq

namespace HypothesisSet

def group (s : HypothesisSet) : Arity → HypothesisGroup
  | .twoProng => s.twoProng
  | .threeProng => s.threeProng

end HypothesisSet

end DecaySearch
