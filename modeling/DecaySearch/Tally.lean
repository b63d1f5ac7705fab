-- Counts of what the selections did. Counts of one event add up to counts of
-- many.
import DecaySearch.TrackSelection
import DecaySearch.Candidate

namespace DecaySearch

/-! ## Tracks -/

/-- How many tracks were selected for each role, and how many each stage
rejected. -/
structure TrackTally where
  selected : PerRole Nat
  rejected : PerRole (PerStage Nat)
  deriving DecidableEq

namespace TrackTally

def zero : TrackTally := ⟨.constant 0, .constant (.constant 0)⟩

def add (a b : TrackTally) : TrackTally :=
  ⟨a.selected.zipWith (· + ·) b.selected,
   a.rejected.zipWith (PerStage.zipWith (· + ·)) b.rejected⟩

def ofVerdict (v : TrackVerdict) : TrackTally :=
  ⟨v.map (·.granted.toNat), v.map (·.rejected.map Bool.toNat)⟩

def record (t : TrackTally) (v : TrackVerdict) : TrackTally := t.add (ofVerdict v)

theorem selected_zero (role : Role) : zero.selected.get role = 0 := PerRole.get_constant 0 role

theorem rejected_zero (role : Role) (stage : TrackStage) :
    (zero.rejected.get role).get stage = 0 := by
  unfold zero
  rw [PerRole.get_constant, PerStage.get_constant]

theorem selected_add (a b : TrackTally) (role : Role) :
    (a.add b).selected.get role = a.selected.get role + b.selected.get role :=
  PerRole.get_zipWith _ _ _ role

theorem rejected_add (a b : TrackTally) (role : Role) (stage : TrackStage) :
    ((a.add b).rejected.get role).get stage =
      (a.rejected.get role).get stage + (b.rejected.get role).get stage := by
  unfold add
  rw [PerRole.get_zipWith, PerStage.get_zipWith]

/-- A tally is made of its counts. -/
theorem ext_get {a b : TrackTally}
    (hselected : ∀ role, a.selected.get role = b.selected.get role)
    (hrejected : ∀ role stage,
      (a.rejected.get role).get stage = (b.rejected.get role).get stage) : a = b := by
  rcases a with ⟨selected, rejected⟩
  obtain rfl : selected = b.selected := PerRole.ext_get hselected
  obtain rfl : rejected = b.rejected :=
    PerRole.ext_get fun role => PerStage.ext_get (hrejected role)
  rfl

end TrackTally

/-! ## Hypotheses -/

structure MatchCounts where
  none : Nat
  first : Nat
  second : Nat
  both : Nat
  deriving DecidableEq

namespace MatchCounts

def zero : MatchCounts := ⟨0, 0, 0, 0⟩

def add (a b : MatchCounts) : MatchCounts :=
  ⟨a.none + b.none, a.first + b.first, a.second + b.second, a.both + b.both⟩

def get (c : MatchCounts) : PermutationMatch → Nat
  | .none => c.none
  | .first => c.first
  | .second => c.second
  | .both => c.both

def record (c : MatchCounts) : PermutationMatch → MatchCounts
  | .none => { c with none := c.none + 1 }
  | .first => { c with first := c.first + 1 }
  | .second => { c with second := c.second + 1 }
  | .both => { c with both := c.both + 1 }

theorem get_record (c : MatchCounts) (m n : PermutationMatch) :
    (c.record m).get n = c.get n + (if m = n then 1 else 0) := by
  cases m <;> cases n <;> rfl

end MatchCounts

structure HypothesisCount where
  /-- Accepted candidates. -/
  accepted : Nat
  /-- Mass matches of the accepted candidates. -/
  matched : MatchCounts
  deriving DecidableEq

namespace HypothesisCount

def zero : HypothesisCount := ⟨0, .zero⟩

def add (a b : HypothesisCount) : HypothesisCount :=
  ⟨a.accepted + b.accepted, a.matched.add b.matched⟩

def record (c : HypothesisCount) (m : PermutationMatch) : HypothesisCount :=
  ⟨c.accepted + 1, c.matched.record m⟩

end HypothesisCount

/-- The largest number of hypotheses of one arity. -/
def maxHypotheses : Nat := 4

/-- The counts of the hypotheses of one arity, by their bits. -/
structure HypothesisTally where
  counts : Vector HypothesisCount maxHypotheses
  deriving DecidableEq

namespace HypothesisTally

def zero : HypothesisTally := ⟨Vector.replicate maxHypotheses .zero⟩

def add (a b : HypothesisTally) : HypothesisTally :=
  ⟨Vector.zipWith HypothesisCount.add a.counts b.counts⟩

/-- The counts of a hypothesis, which are zero if it has no place. -/
def get (t : HypothesisTally) (bit : Nat) : HypothesisCount := t.counts[bit]?.getD .zero

def accepted (t : HypothesisTally) (bit : Nat) : Nat := (t.get bit).accepted

def matched (t : HypothesisTally) (bit : Nat) (m : PermutationMatch) : Nat :=
  (t.get bit).matched.get m

/-- Counts an accepted hypothesis of a candidate. -/
def recordBit (t : HypothesisTally) (bit : Nat) (found : List PermutationMatch) :
    Except Fault HypothesisTally :=
  if h : bit < maxHypotheses then
    match found[bit]? with
    | none => .error (.outOfBounds found.length bit)
    | some m => .ok ⟨t.counts.set bit (t.counts[bit].record m)⟩
  else .error (.outOfBounds maxHypotheses bit)

/-- Counts every accepted hypothesis of a candidate. -/
def record (t : HypothesisTally) (mask : HypothesisMask) (found : List PermutationMatch) :
    Except Fault HypothesisTally :=
  mask.toList.foldlM (fun t bit => t.recordBit bit found) t

end HypothesisTally

/-! ## Events -/

/-- The counters of the search in one or more events. -/
structure EventCounts where
  /-- Tracks with at least one role. -/
  taggedTracks : Nat
  twoProng : Nat
  threeProng : Nat
  cascades : Nat
  fitsAttempted : Nat
  fitsFailed : Nat
  deriving DecidableEq

namespace EventCounts

def zero : EventCounts := ⟨0, 0, 0, 0, 0, 0⟩

def add (a b : EventCounts) : EventCounts :=
  ⟨a.taggedTracks + b.taggedTracks, a.twoProng + b.twoProng, a.threeProng + b.threeProng,
   a.cascades + b.cascades, a.fitsAttempted + b.fitsAttempted, a.fitsFailed + b.fitsFailed⟩

def toList (c : EventCounts) : List Nat :=
  [c.taggedTracks, c.twoProng, c.threeProng, c.cascades, c.fitsAttempted, c.fitsFailed]

def fits (c : EventCounts) : Bool := c.toList.all (· < Nat.pow 2 64)

/-- The counters that can be added before the first one that does not fit into 64
bits. The others are zero. -/
def fitting (a b : EventCounts) : EventCounts :=
  let count := ((a.add b).toList.takeWhile (· < Nat.pow 2 64)).length
  { taggedTracks := if 0 < count then b.taggedTracks else 0
    twoProng := if 1 < count then b.twoProng else 0
    threeProng := if 2 < count then b.threeProng else 0
    cascades := if 3 < count then b.cascades else 0
    fitsAttempted := if 4 < count then b.fitsAttempted else 0
    fitsFailed := if 5 < count then b.fitsFailed else 0 }

end EventCounts

end DecaySearch
