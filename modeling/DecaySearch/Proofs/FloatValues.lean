-- What arithmetic makes of NaN and of the infinities. Rounding never makes NaN out of a
-- number, an operand that is NaN makes the result NaN, and a product of finite numbers is
-- a number.
import DecaySearch.Proofs.FloatOrder

namespace DecaySearch.FloatOrder

open Float.Model (UnpackedFloat Format)

/-! ## Stored results -/

theorem unpack_packedInfinity (s : UnpackedFloat.Sign) :
    UnpackedFloat.unpack Format.binary64 (UnpackedFloat.packedInfinity Format.binary64 s) =
      .infinity s := by
  simp [UnpackedFloat.unpack, UnpackedFloat.packedInfinity]

theorem packedInfinity_ne_packedNaN (s : UnpackedFloat.Sign) :
    UnpackedFloat.packedInfinity Format.binary64 s ≠ UnpackedFloat.packedNaN Format.binary64 := by
  cases s <;> decide

theorem packedZero_ne_packedNaN (s : UnpackedFloat.Sign) :
    UnpackedFloat.packedZero Format.binary64 s ≠ UnpackedFloat.packedNaN Format.binary64 := by
  cases s <;> decide

/-- Components make NaN only with the largest exponent. -/
theorem packComponents_ne_packedNaN (s : UnpackedFloat.Sign) {exponent : BitVec 11}
    (h : exponent.toNat < 2047) (mantissa : BitVec 52) :
    UnpackedFloat.packComponents Format.binary64 s exponent mantissa ≠
      UnpackedFloat.packedNaN Format.binary64 := by
  intro heq
  have hsame := congrArg UnpackedFloat.unpackExponent heq
  rw [UnpackedFloat.unpackExponent_packComponents] at hsame
  have hlargest : (UnpackedFloat.unpackExponent
      (UnpackedFloat.packedNaN Format.binary64)).toNat = 2047 := by decide
  rw [← hsame] at hlargest
  omega

/-- Only NaN is stored as NaN. -/
theorem pack_ne_packedNaN {u : UnpackedFloat} (h : u ≠ .notANumber) :
    UnpackedFloat.pack Format.binary64 u ≠ UnpackedFloat.packedNaN Format.binary64 := by
  cases u with
  | notANumber => exact absurd rfl h
  | infinity s => exact packedInfinity_ne_packedNaN s
  | zero s => exact packedZero_ne_packedNaN s
  | finite s m e hm =>
    unfold UnpackedFloat.pack
    simp only
    split
    · exact packedInfinity_ne_packedNaN s
    · rename_i hexponent
      have hbits : 2 ^ Format.binary64.exponentBits = 2048 := rfl
      rw [hbits] at hexponent
      split
      · apply packComponents_ne_packedNaN
        rw [BitVec.toNat_ofNat]
        exact Nat.lt_of_le_of_lt (Nat.mod_le _ _) (by omega)
      · exact packComponents_ne_packedNaN s (by decide) _

/-- What an operation stores is NaN only if its result is. -/
theorem isNaN_pack (u : UnpackedFloat) : (Float.Model.pack u).unpack.isNaN = u.isNaN := by
  by_cases h : u = .notANumber
  · subst h
    decide
  · have hu : u.isNaN = false := by
      rw [← Bool.not_eq_true, UnpackedFloat.isNaN_iff]
      exact h
    rw [hu, ← Bool.not_eq_true]
    intro hpacked
    exact pack_ne_packedNaN h
      ((UnpackedFloat.isNaN_unpack_iff_of_valid UnpackedFloat.valid_pack).mp hpacked)

/-! ## Operands that are NaN -/

section

variable {x y : Float}

theorem unpack_of_isNaN (h : x.isNaN = true) : x.toModel.unpack = .notANumber :=
  UnpackedFloat.isNaN_iff.mp h

theorem isNaN_mul_left (h : x.isNaN = true) : (x * y).isNaN = true := by
  show (Float.Model.pack (UnpackedFloat.mul Format.binary64 x.toModel.unpack
    y.toModel.unpack)).unpack.isNaN = true
  rw [isNaN_pack, unpack_of_isNaN h]
  rfl

theorem isNaN_sub_left (h : x.isNaN = true) : (x - y).isNaN = true := by
  show (Float.Model.pack (UnpackedFloat.sub Format.binary64 x.toModel.unpack
    y.toModel.unpack)).unpack.isNaN = true
  rw [isNaN_pack, unpack_of_isNaN h]
  rfl

/-- A product that is a number has a number as its first factor. -/
theorem isNaN_of_mul (h : (x * y).isNaN = false) : x.isNaN = false := by
  rw [← Bool.not_eq_true] at h ⊢
  exact mt isNaN_mul_left h

/-- A difference that is a number is one from a number. -/
theorem isNaN_of_sub (h : (x - y).isNaN = false) : x.isNaN = false := by
  rw [← Bool.not_eq_true] at h ⊢
  exact mt isNaN_sub_left h

theorem isNaN_abs (x : Float) : x.abs.isNaN = x.isNaN := by
  show (Float.Model.pack x.toModel.unpack.abs).unpack.isNaN = x.toModel.unpack.isNaN
  rw [isNaN_pack]
  cases x.toModel.unpack <;> rfl

end

/-! ## Finite operands -/

theorem isNaN_roundWithAccuracy (s : UnpackedFloat.Sign) (m : Nat) (e : Int)
    (accuracy : UnpackedFloat.Accuracy) :
    (UnpackedFloat.roundWithAccuracy Format.binary64 s m e accuracy).isNaN = false := by
  unfold UnpackedFloat.roundWithAccuracy
  simp only
  split
  · rfl
  · rfl

/-- The product of finite numbers may be too large, but it is a number. -/
theorem isNaN_mul_of_isFinite {x y : Float} (hx : x.isFinite = true) (hy : y.isFinite = true) :
    (x * y).isNaN = false := by
  have hxu : x.toModel.unpack.isFinite = true := hx
  have hyu : y.toModel.unpack.isFinite = true := hy
  show (Float.Model.pack (UnpackedFloat.mul Format.binary64 x.toModel.unpack
    y.toModel.unpack)).unpack.isNaN = false
  rw [isNaN_pack]
  cases hxc : x.toModel.unpack with
  | notANumber => rw [hxc] at hxu; cases hxu
  | infinity s => rw [hxc] at hxu; cases hxu
  | zero s =>
    cases hyc : y.toModel.unpack with
    | notANumber => rw [hyc] at hyu; cases hyu
    | infinity t => rw [hyc] at hyu; cases hyu
    | zero t => rfl
    | finite t n f hn => rfl
  | finite s m e hm =>
    cases hyc : y.toModel.unpack with
    | notANumber => rw [hyc] at hyu; cases hyu
    | infinity t => rw [hyc] at hyu; cases hyu
    | zero t => rfl
    | finite t n f hn => exact isNaN_roundWithAccuracy _ _ _ _

/-- A number whose absolute value has a finite bound is finite. -/
theorem isFinite_of_abs_le {x y : Float} (hy : y.isFinite = true) (h : x.abs ≤ y) :
    x.isFinite = true := by
  obtain ⟨hnumber, _, hplace⟩ := (le_iff _ _).mp h
  rw [isNaN_abs] at hnumber
  have hnumber' : x.toModel.unpack.isNaN = false := hnumber
  have hyu : y.toModel.unpack.isFinite = true := hy
  show x.toModel.unpack.isFinite = true
  cases hxc : x.toModel.unpack with
  | notANumber => rw [hxc] at hnumber'; cases hnumber'
  | zero s => rfl
  | finite s m e hm => rfl
  | infinity s =>
    -- Then the absolute value is infinite, and lies right of every finite number.
    have habs : x.abs.toModel.unpack = .infinity .positive := by
      show (Float.Model.pack x.toModel.unpack.abs).unpack = _
      rw [hxc]
      exact unpack_packedInfinity .positive
    have hleft : Left (placeOf y) (placeOf x.abs) := by
      unfold placeOf
      rw [habs]
      cases hyc : y.toModel.unpack with
      | notANumber => rw [hyc] at hyu; cases hyu
      | infinity t => rw [hyc] at hyu; cases hyu
      | zero t => exact Or.inl (show (0 : Int) < 2 by decide)
      | finite t n f hn =>
        cases t with
        | negative => exact Or.inl (show (-1 : Int) < 2 by decide)
        | positive => exact Or.inl (show (1 : Int) < 2 by decide)
    exact absurd hleft hplace

end DecaySearch.FloatOrder
