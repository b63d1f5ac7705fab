-- Sets of decay hypotheses, as the bits of a byte.
import DecaySearch.Fault

namespace DecaySearch

/-- A set of hypotheses of one arity. Bit `i` stands for the `i`-th one. -/
structure HypothesisMask where
  bits : BitVec 8
  deriving DecidableEq

namespace HypothesisMask

/-- The number of hypotheses that a mask has room for. -/
def capacity : Nat := 8

def empty : HypothesisMask := ⟨0⟩

def isEmpty (m : HypothesisMask) : Bool := m = empty

/-- Truth that a hypothesis is in the set. No hypothesis beyond the capacity is. -/
def contains (m : HypothesisMask) (bit : Nat) : Bool := m.bits.getLsbD bit

def insert (m : HypothesisMask) (bit : Nat) : HypothesisMask := ⟨m.bits ||| BitVec.twoPow 8 bit⟩

def remove (m : HypothesisMask) (bit : Nat) : HypothesisMask :=
  ⟨m.bits &&& ~~~BitVec.twoPow 8 bit⟩

/-- The hypotheses in the set, lowest bit first. -/
def toList (m : HypothesisMask) : List Nat := (List.range capacity).filter m.contains

/-- The set of the positions that hold `true`. -/
def ofFlags (flags : List Bool) : HypothesisMask :=
  flags.zipIdx.foldl (fun m (flag, bit) => if flag then m.insert bit else m) empty

def text (m : HypothesisMask) : String := toString m.bits.toNat

/-- A bit that a mask has. -/
def bit (index : Nat) : Except Fault Nat :=
  if index < capacity then .ok index else .error .bitOutsideByte

theorem bit_eq_ok_iff {index b : Nat} : bit index = .ok b ↔ index < capacity ∧ index = b := by
  unfold bit
  split
  · rename_i hlt
    rw [Except.ok.injEq, and_iff_right hlt]
  · rename_i hbeyond
    simp [hbeyond]

theorem contains_empty (bit : Nat) : empty.contains bit = false := by
  simp [contains, empty]

theorem contains_insert (m : HypothesisMask) (i j : Nat) (hi : i < capacity) :
    (m.insert i).contains j = (m.contains j || decide (i = j)) := by
  simp only [capacity] at hi
  simp [contains, insert, BitVec.getLsbD_or, BitVec.getLsbD_twoPow, hi]

theorem contains_remove (m : HypothesisMask) (i j : Nat) :
    (m.remove i).contains j = (m.contains j && decide (i ≠ j)) := by
  simp only [contains, remove, BitVec.getLsbD_and, BitVec.getLsbD_not, BitVec.getLsbD_twoPow]
  by_cases h : i = j
  · subst h
    by_cases hi : i < 8 <;> simp [hi]
  · by_cases hj : j < 8
    · simp [hj, h]
    · simp [BitVec.getLsbD_of_ge m.bits j (by omega)]

/-- A mask is known by the hypotheses in it. -/
theorem ext_contains {m n : HypothesisMask} (h : ∀ bit, m.contains bit = n.contains bit) :
    m = n := by
  have hbits : m.bits = n.bits := BitVec.eq_of_getLsbD_eq fun i _ => h i
  cases m
  cases n
  exact congrArg mk hbits

/-- A mask without a hypothesis is the empty one. -/
theorem isEmpty_iff (m : HypothesisMask) :
    m.isEmpty = true ↔ ∀ bit, m.contains bit = false := by
  constructor
  · intro h bit
    have hm : m = empty := by simpa [isEmpty] using h
    rw [hm, contains_empty]
  · intro h
    have hm : m = empty := ext_contains fun bit => by rw [h bit, contains_empty]
    rw [hm]
    rfl

theorem mem_toList (m : HypothesisMask) (bit : Nat) :
    bit ∈ m.toList ↔ bit < capacity ∧ m.contains bit = true := by
  simp [toList]

-- The induction carries the position of the first flag and the mask so far.
theorem contains_foldl_insert (flags : List Bool) (start : Nat) (m : HypothesisMask) (bit : Nat)
    (h : start + flags.length ≤ capacity) :
    ((flags.zipIdx start).foldl (fun m (flag, i) => if flag then m.insert i else m) m).contains
        bit =
      (m.contains bit || (decide (start ≤ bit) && flags.getD (bit - start) false)) := by
  induction flags generalizing start m with
  | nil => simp
  | cons flag rest ih =>
    simp only [List.length_cons] at h
    simp only [List.zipIdx_cons, List.foldl_cons]
    rw [ih (start + 1) _ (by omega)]
    have hstep : (if flag = true then m.insert start else m).contains bit =
        (m.contains bit || (flag && decide (start = bit))) := by
      cases flag
      · simp
      · rw [if_pos rfl, contains_insert _ _ _ (by omega)]
        simp
    rw [hstep]
    rcases Nat.lt_trichotomy start bit with hlt | rfl | hgt
    · obtain ⟨k, rfl⟩ : ∃ k, bit = start + 1 + k := ⟨bit - (start + 1), by omega⟩
      have hk : start + 1 + k - start = k + 1 := by omega
      simp [hk, show start ≠ start + 1 + k by omega, show start ≤ start + 1 + k by omega]
    · simp [show ¬ start + 1 ≤ start by omega]
    · simp [show ¬ start ≤ bit by omega, show ¬ start + 1 ≤ bit by omega,
        show start ≠ bit by omega]

/-- A mask of flags holds exactly the positions of those that are set. -/
theorem contains_ofFlags (flags : List Bool) (bit : Nat) (h : flags.length ≤ capacity) :
    (ofFlags flags).contains bit = flags.getD bit false := by
  unfold ofFlags
  rw [contains_foldl_insert flags 0 empty bit (by omega), contains_empty]
  simp

/-- Taking a hypothesis out of a mask of flags clears its flag. -/
theorem remove_ofFlags (flags : List Bool) (bit : Nat) (h : flags.length ≤ capacity) :
    (ofFlags flags).remove bit = ofFlags (flags.set bit false) := by
  apply ext_contains
  intro other
  have hset : (flags.set bit false).length ≤ capacity := by rwa [List.length_set]
  rw [contains_remove, contains_ofFlags _ _ h, contains_ofFlags _ _ hset,
    List.getD_eq_getElem?_getD, List.getD_eq_getElem?_getD, List.getElem?_set]
  split
  · rename_i heq
    subst heq
    split <;> simp
  · rename_i hne
    simp [hne]

end HypothesisMask

end DecaySearch
