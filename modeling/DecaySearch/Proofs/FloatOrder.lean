-- The order of doubles. A comparison with NaN is false, and all other doubles
-- lie on one line: the two zeros share a place and the infinities are its ends.
import Mathlib
import DecaySearch.Geometry

namespace DecaySearch.FloatOrder

open Float.Model (UnpackedFloat)

/-! ## Places on the line -/

/-- Where a double lies: its kind, from the negative end to the positive one, then
its exponent, then its mantissa. NaN has no place of its own. -/
def place : UnpackedFloat → Int × Int × Int
  | .infinity .negative => (-2, 0, 0)
  | .finite .negative m e _ => (-1, -e, -m)
  | .notANumber => (0, 0, 0)
  | .zero _ => (0, 0, 0)
  | .finite .positive m e _ => (1, e, m)
  | .infinity .positive => (2, 0, 0)

/-- A place is further left than another one. -/
def Left (p q : Int × Int × Int) : Prop :=
  p.1 < q.1 ∨ p.1 = q.1 ∧ (p.2.1 < q.2.1 ∨ p.2.1 = q.2.1 ∧ p.2.2 < q.2.2)

theorem compare_then_lt (e f : Int) (m n : Nat) :
    (compare e f).then (compare m n) = .lt ↔ e < f ∨ e = f ∧ m < n := by
  rw [Ordering.then_eq_lt, Int.compare_eq_lt, Int.compare_eq_eq, Nat.compare_eq_lt]

theorem compare_then_gt (e f : Int) (m n : Nat) :
    (compare e f).then (compare m n) = .gt ↔ f < e ∨ e = f ∧ n < m := by
  rw [Ordering.then_eq_gt, Int.compare_eq_gt, Int.compare_eq_eq, Nat.compare_eq_gt]

theorem compare_sign :
    compare UnpackedFloat.Sign.negative .positive = .lt ∧
      compare UnpackedFloat.Sign.positive .negative = .gt ∧
      compare UnpackedFloat.Sign.negative .negative = .eq ∧
      compare UnpackedFloat.Sign.positive .positive = .eq := by
  decide

-- One case for each pair of kinds. Only two numbers of the same sign need their
-- exponents and mantissas, and two negative ones compare the other way.
theorem compare_eq_lt_iff (a b : UnpackedFloat) :
    a.compare b = some .lt ↔ a.isNaN = false ∧ b.isNaN = false ∧ Left (place a) (place b) := by
  rcases a with (_ | _) | _ | _ | ⟨_ | _, m, e, _⟩ <;>
    rcases b with (_ | _) | _ | _ | ⟨_ | _, n, f, _⟩ <;>
    simp [UnpackedFloat.compare, UnpackedFloat.isNaN, place, Left, compare_then_lt,
      compare_then_gt, compare_sign]

theorem compare_eq_gt_iff (a b : UnpackedFloat) :
    a.compare b = some .gt ↔ a.isNaN = false ∧ b.isNaN = false ∧ Left (place b) (place a) := by
  rcases a with (_ | _) | _ | _ | ⟨_ | _, m, e, _⟩ <;>
    rcases b with (_ | _) | _ | _ | ⟨_ | _, n, f, _⟩ <;>
    simp [UnpackedFloat.compare, UnpackedFloat.isNaN, place, Left, compare_then_lt,
      compare_then_gt, compare_sign, @eq_comm Int]

theorem isSome_compare (a b : UnpackedFloat) :
    (a.compare b).isSome = true ↔ a.isNaN = false ∧ b.isNaN = false := by
  rcases a with (_ | _) | _ | _ | ⟨_ | _, m, e, _⟩ <;>
    rcases b with (_ | _) | _ | _ | ⟨_ | _, n, f, _⟩ <;>
    simp [UnpackedFloat.compare, UnpackedFloat.isNaN]

theorem compare_eq_eq_iff (a b : UnpackedFloat) :
    a.compare b = some .eq ↔ a.isNaN = false ∧ b.isNaN = false ∧
      ¬ Left (place a) (place b) ∧ ¬ Left (place b) (place a) := by
  have hsome := isSome_compare a b
  have hlt := compare_eq_lt_iff a b
  have hgt := compare_eq_gt_iff a b
  rcases hc : a.compare b with _ | o
  · rw [hc] at hsome
    constructor
    · intro hnone
      cases hnone
    · rintro ⟨ha, hb, _⟩
      exact absurd (hsome.mpr ⟨ha, hb⟩) (by decide)
  · rw [hc] at hsome hlt hgt
    obtain ⟨ha, hb⟩ := hsome.mp rfl
    simp only [ha, hb, true_and, Option.some.injEq] at hlt hgt ⊢
    rw [← hlt, ← hgt]
    cases o <;> decide

/-! ## Comparisons of doubles -/

/-- The place of a double. -/
def placeOf (x : Float) : Int × Int × Int := place x.toModel.unpack

theorem lt_iff (x y : Float) :
    x < y ↔ x.isNaN = false ∧ y.isNaN = false ∧ Left (placeOf x) (placeOf y) := by
  have h : x < y ↔ x.toModel.unpack.compare y.toModel.unpack = some .lt := by
    show decide (x.toModel < y.toModel) = true ↔ _
    rw [decide_eq_true_iff]
    show (_ == _) = true ↔ _
    exact beq_iff_eq
  rw [h, compare_eq_lt_iff]
  rfl

theorem le_iff (x y : Float) :
    x ≤ y ↔ x.isNaN = false ∧ y.isNaN = false ∧ ¬ Left (placeOf y) (placeOf x) := by
  have h : x ≤ y ↔ (x.toModel.unpack.compare y.toModel.unpack).any (·.isLE) = true := by
    show decide (x.toModel ≤ y.toModel) = true ↔ _
    rw [decide_eq_true_iff]
    rfl
  have hnan : ∀ z : Float, z.isNaN = z.toModel.unpack.isNaN := fun _ => rfl
  have hsome := isSome_compare x.toModel.unpack y.toModel.unpack
  have hgt := compare_eq_gt_iff x.toModel.unpack y.toModel.unpack
  rw [h, hnan, hnan]
  unfold placeOf
  rcases hc : x.toModel.unpack.compare y.toModel.unpack with _ | o
  · simp only [hc, Option.isSome_none, Bool.false_eq_true, false_iff] at hsome
    simp only [Option.any_none, Bool.false_eq_true, false_iff]
    exact fun ⟨hx, hy, _⟩ => hsome ⟨hx, hy⟩
  · simp only [hc, Option.isSome_some, true_iff] at hsome
    obtain ⟨hx, hy⟩ := hsome
    simp only [hc, hx, hy, true_and, Option.some.injEq] at hgt
    simp only [Option.any_some, hx, hy, true_and, ← hgt]
    cases o <;> simp

/-- Two doubles are equal if neither exceeds the other. -/
theorem beq_iff (x y : Float) : (x == y) = true ↔ x ≤ y ∧ y ≤ x := by
  have h : (x == y) = true ↔ x.toModel.unpack.compare y.toModel.unpack = some .eq := by
    show (x.toModel.unpack.compare y.toModel.unpack == some .eq) = true ↔ _
    exact beq_iff_eq
  rw [h, compare_eq_eq_iff, le_iff, le_iff]
  constructor
  · rintro ⟨hx, hy, hxy, hyx⟩
    exact ⟨⟨hx, hy, hyx⟩, hy, hx, hxy⟩
  · rintro ⟨⟨hx, hy, hyx⟩, _, _, hxy⟩
    exact ⟨hx, hy, hxy, hyx⟩

/-! ## Laws of the order -/

theorem left_trans {p q r : Int × Int × Int} (h : Left p q) (h' : Left q r) : Left p r := by
  unfold Left at *
  omega

theorem left_or_left_or_eq (p q : Int × Int × Int) : Left p q ∨ Left q p ∨ p = q := by
  obtain ⟨a, b, c⟩ := p
  obtain ⟨d, e, f⟩ := q
  simp only [Left, Prod.mk.injEq]
  omega

theorem not_left_of_left {p q : Int × Int × Int} (h : Left p q) : ¬ Left q p := by
  unfold Left at *
  omega

theorem le_trans {x y z : Float} (h : x ≤ y) (h' : y ≤ z) : x ≤ z := by
  rw [le_iff] at *
  obtain ⟨hx, _, hxy⟩ := h
  obtain ⟨_, hz, hyz⟩ := h'
  refine ⟨hx, hz, fun hzx => ?_⟩
  rcases left_or_left_or_eq (placeOf x) (placeOf y) with h1 | h1 | h1
  · exact hyz (left_trans hzx h1)
  · exact hxy h1
  · exact hyz (h1 ▸ hzx)

theorem le_of_lt {x y : Float} (h : x < y) : x ≤ y := by
  rw [lt_iff] at h
  rw [le_iff]
  exact ⟨h.1, h.2.1, not_left_of_left h.2.2⟩

theorem not_le_of_lt {x y : Float} (h : x < y) : ¬ y ≤ x := by
  rw [lt_iff] at h
  rw [le_iff]
  exact fun h' => h'.2.2 h.2.2

theorem not_lt_of_le {x y : Float} (h : x ≤ y) : ¬ y < x :=
  fun h' => not_le_of_lt h' h

theorem lt_of_lt_of_le {x y z : Float} (h : x < y) (h' : y ≤ z) : x < z := by
  rw [lt_iff] at *
  rw [le_iff] at h'
  obtain ⟨hx, _, hxy⟩ := h
  obtain ⟨_, hz, hyz⟩ := h'
  refine ⟨hx, hz, ?_⟩
  rcases left_or_left_or_eq (placeOf y) (placeOf z) with h1 | h1 | h1
  · exact left_trans hxy h1
  · exact absurd h1 hyz
  · exact h1 ▸ hxy

theorem le_refl {x : Float} (h : x.isNaN = false) : x ≤ x := by
  rw [le_iff]
  exact ⟨h, h, fun hl => not_left_of_left hl hl⟩

/-- Two numbers that are not NaN compare one way or the other. -/
theorem lt_of_not_le {x y : Float} (hx : x.isNaN = false) (hy : y.isNaN = false)
    (h : ¬ y ≤ x) : x < y := by
  rw [le_iff] at h
  rw [lt_iff]
  exact ⟨hx, hy, Classical.byContradiction fun hl => h ⟨hy, hx, hl⟩⟩

theorem le_of_not_lt {x y : Float} (hx : x.isNaN = false) (hy : y.isNaN = false)
    (h : ¬ y < x) : x ≤ y := by
  rw [lt_iff] at h
  rw [le_iff]
  exact ⟨hx, hy, fun hl => h ⟨hy, hx, hl⟩⟩

theorem isNaN_of_le {x y : Float} (h : x ≤ y) : x.isNaN = false ∧ y.isNaN = false := by
  rw [le_iff] at h
  exact ⟨h.1, h.2.1⟩

theorem isNaN_of_lt {x y : Float} (h : x < y) : x.isNaN = false ∧ y.isNaN = false :=
  isNaN_of_le (le_of_lt h)

theorem isNaN_of_isFinite {x : Float} (h : x.isFinite = true) : x.isNaN = false := by
  have hf : x.toModel.unpack.isFinite = true := h
  show x.toModel.unpack.isNaN = false
  rcases hu : x.toModel.unpack with _ | _ | _ | _ <;> simp_all [UnpackedFloat.isFinite,
    UnpackedFloat.isNaN]

end DecaySearch.FloatOrder
