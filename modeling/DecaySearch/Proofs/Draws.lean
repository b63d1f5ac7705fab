-- What a draw of random numbers asks for. A draw from a range needs one that is not empty
-- and whose ends and width are finite, and a choice needs a probability. Without it the
-- draw fails on every stream, and with it on none.
import DecaySearch.Toy.Generator
import DecaySearch.Proofs.FloatOrder

namespace DecaySearch.Toy

variable {α β : Type}

/-! ## How a computation ends -/

/-- A computation ends in a result or in a fault, each with a property. -/
def Ends (r : Except Fault β) (good : β → Prop) (bad : Fault → Prop) : Prop :=
  match r with
  | .ok b => good b
  | .error fault => bad fault

theorem Ends.bind {r : Except Fault α} {f : α → Except Fault β} {good : α → Prop}
    {good' : β → Prop} {bad : Fault → Prop} (h : Ends r good bad)
    (hf : ∀ a, good a → Ends (f a) good' bad) : Ends (r >>= f) good' bad := by
  cases r with
  | error fault => exact h
  | ok a => exact hf a h

theorem Ends.mono {r : Except Fault β} {good good' : β → Prop} {bad bad' : Fault → Prop}
    (h : Ends r good bad) (hgood : ∀ b, good b → good' b)
    (hbad : ∀ fault, bad fault → bad' fault) : Ends r good' bad' := by
  cases r with
  | error fault => exact hbad fault h
  | ok b => exact hgood b h

/-- What a draw ends with if its condition is missing. -/
def Missing (C : Prop) (fault : Fault) : Prop :=
  (fault = .emptyRange ∨ fault = .invalidProbability) ∧ ¬ C

theorem Missing.mono {C D : Prop} (h : D → C) {fault : Fault} (hmissing : Missing C fault) :
    Missing D fault := ⟨hmissing.1, mt h hmissing.2⟩

namespace Draw

/-- A draw gives a value with a property exactly if a condition holds. -/
def Gives (C : Prop) (draw : Draw α) (P : α → Prop) : Prop :=
  ∀ stream, Ends (draw stream) (fun r => C ∧ P r.1) (Missing C)

theorem Gives.congr {C D : Prop} {draw : Draw α} {P : α → Prop} (h : Gives C draw P)
    (hCD : C ↔ D) : Gives D draw P := propext hCD ▸ h

theorem Gives.mono {C : Prop} {draw : Draw α} {P Q : α → Prop} (h : Gives C draw P)
    (hPQ : ∀ a, P a → Q a) : Gives C draw Q :=
  fun stream => (h stream).mono (fun r hr => ⟨hr.1, hPQ r.1 hr.2⟩) fun _ hbad => hbad

/-- Two draws need what each of them needs. -/
theorem Gives.bind {C D : Prop} {draw : Draw α} {f : α → Draw β} {P : α → Prop} {Q : β → Prop}
    (h : Gives C draw P) (hf : ∀ a, P a → Gives D (f a) Q) : Gives (C ∧ D) (draw >>= f) Q := by
  intro stream
  refine ((h stream).mono (fun r hr => hr) fun _ => Missing.mono And.left).bind fun r hr => ?_
  exact (hf r.1 hr.2 r.2).mono (fun r' hr' => ⟨⟨hr.1, hr'.1⟩, hr'.2⟩)
    fun _ => Missing.mono And.right

/-- A draw that needs nothing. -/
abbrev Always (draw : Draw α) (P : α → Prop) : Prop := Gives True draw P

theorem always_pure {a : α} {P : α → Prop} (h : P a) : Always (pure a) P := fun _ => ⟨trivial, h⟩

theorem Always.bind {draw : Draw α} {f : α → Draw β} {P : α → Prop} {Q : β → Prop}
    (h : Always draw P) (hf : ∀ a, P a → Always (f a) Q) : Always (draw >>= f) Q :=
  (Gives.bind h hf).congr (and_self_iff)

/-- A draw behind a check gives what it gives without, if the check passes. -/
theorem gives_of_check {c : Bool} {C : Prop} (hc : c = true ↔ C) {draw : Draw α} {fault : Fault}
    (hfault : fault = .emptyRange ∨ fault = .invalidProbability) {P : α → Prop}
    (h : C → Always draw P) : Gives C (if c then draw else fail fault) P := by
  intro stream
  split
  · rename_i hpasses
    have hC := hc.mp hpasses
    exact (h hC stream).mono (fun r hr => ⟨hC, hr.2⟩) fun _ hbad => absurd trivial hbad.2
  · rename_i hfails
    exact ⟨hfault, mt hc.mpr hfails⟩

/-! ## Words -/

theorem always_word64 : Always word64 fun _ => True := fun _ => ⟨trivial, trivial⟩

theorem always_word32 : Always word32 fun _ => True :=
  always_word64.bind fun _ _ => always_pure trivial

theorem always_byte : Always byte fun _ => True :=
  always_word32.bind fun _ _ => always_pure trivial

theorem always_unitInterval : Always unitInterval fun _ => True :=
  always_word64.bind fun _ _ => always_pure trivial

theorem always_fraction : Always fraction fun _ => True :=
  always_word64.bind fun _ _ => always_pure trivial

/-- Repeating a draw gives what each try gives. -/
theorem always_firstAccepted {draw : Draw α} {P : α → Prop} (h : Always draw P)
    (accepts : α → Bool) (tries : Nat) : Always (firstAccepted draw accepts tries) P := by
  induction tries with
  | zero => exact h
  | succ tries ih =>
    refine h.bind fun a ha => ?_
    split
    · exact always_pure ha
    · exact ih

/-! ## Whole numbers -/

/-- The upper word of a product with a range lies below the range. -/
theorem wideProduct_lt (word : UInt64) {range : UInt64} (h : range ≠ 0) :
    (wideProduct word range).1 < range := by
  have hword := word.toNat_lt
  have hrange := range.toNat_lt
  have hpositive : 0 < range.toNat := by
    apply Nat.pos_of_ne_zero
    intro hzero
    exact h (UInt64.toNat_inj.mp hzero)
  have hproduct : word.toNat * range.toNat < range.toNat * 2 ^ 64 := by
    rw [Nat.mul_comm]
    exact Nat.mul_lt_mul_of_pos_left hword hpositive
  have hbelow : word.toNat * range.toNat / 2 ^ 64 < range.toNat :=
    (Nat.div_lt_iff_lt_mul (by decide)).mpr hproduct
  rw [UInt64.lt_iff_toNat_lt]
  show (UInt64.ofNat (word.toNat * range.toNat / 2 ^ 64)).toNat < range.toNat
  rw [UInt64.toNat_ofNat_of_lt' (Nat.lt_trans hbelow hrange)]
  exact hbelow

/-- No number that is drawn exceeds the largest one. -/
theorem always_upTo (largest : UInt64) : Always (upTo largest) (· ≤ largest) := by
  unfold upTo
  dsimp only
  split
  · -- The range is that of all words.
    rename_i hall
    refine always_word64.mono fun word _ => ?_
    have hwraps : (largest.toNat + 1) % 2 ^ 64 = 0 := by
      rw [← UInt64.toNat_inj, UInt64.toNat_add] at hall
      exact hall
    have hword := word.toNat_lt
    rw [UInt64.le_iff_toNat_le]
    omega
  · rename_i hrange
    have htry : Always (do let word ← word64; pure (wideProduct word (largest + 1)))
        fun product => product.1 < largest + 1 :=
      always_word64.bind fun word _ => always_pure (wideProduct_lt word hrange)
    refine (always_firstAccepted htry _ _).bind fun product hproduct => always_pure ?_
    rw [UInt64.lt_iff_toNat_lt] at hproduct
    rw [UInt64.le_iff_toNat_le]
    have hsucc : (largest + 1).toNat ≤ largest.toNat + 1 := by
      rw [UInt64.toNat_add]
      exact Nat.mod_le _ _
    omega

theorem always_between16 (low high : UInt16) : Always (between16 low high) fun _ => True := by
  refine Always.bind (P := fun _ => True) ?_ fun _ _ => always_pure trivial
  exact always_firstAccepted (always_word32.bind fun _ _ => always_pure trivial) _ _

/-! ## Choices -/

/-- A probability that is a number lies between zero and one when it is cut off. -/
theorem clampProbability_bounds {p : Float} (h : p.isNaN = false) :
    0 ≤ clampProbability p ∧ clampProbability p ≤ 1 := by
  have hzero : (0 : Float).isNaN = false := by decide
  have hone : (1 : Float).isNaN = false := by decide
  unfold clampProbability
  split
  · exact ⟨by decide, by decide⟩
  · rename_i hlow
    split
    · exact ⟨by decide, by decide⟩
    · rename_i hhigh
      exact ⟨FloatOrder.le_of_not_lt hzero h hlow, FloatOrder.le_of_not_lt h hone hhigh⟩

/-- NaN is not cut off, because it does not compare with the ends. -/
theorem clampProbability_of_isNaN {p : Float} (h : p.isNaN = true) : clampProbability p = p := by
  have hnumber : p.isNaN ≠ false := by
    rw [h]
    decide
  have hlow : ¬ p < 0 := fun hlt => hnumber (FloatOrder.isNaN_of_lt hlt).1
  have hhigh : ¬ 1 < p := fun hlt => hnumber (FloatOrder.isNaN_of_lt hlt).2
  unfold clampProbability
  rw [if_neg hlow, if_neg hhigh]

/-- A choice can be made with a probability from zero to one, and one is certain. -/
theorem gives_chance (p : Float) :
    Gives (0 ≤ p ∧ p ≤ 1) (chance p) fun chosen => 1 ≤ p → chosen = true := by
  unfold chance
  split
  · rename_i hcertain
    rw [FloatOrder.beq_iff] at hcertain
    exact fun _ => ⟨⟨FloatOrder.le_trans (by decide) hcertain.2, hcertain.1⟩, fun _ => rfl⟩
  · rename_i hcertain
    have hcheck : (0 ≤ p && p < 1) = true ↔ 0 ≤ p ∧ p ≤ 1 := by
      rw [Bool.and_eq_true, decide_eq_true_iff, decide_eq_true_iff]
      apply and_congr_right
      intro hlow
      constructor
      · exact FloatOrder.le_of_lt
      · intro hhigh
        apply FloatOrder.lt_of_not_le (FloatOrder.isNaN_of_le hlow).2 (by decide)
        intro hreaches
        exact hcertain ((FloatOrder.beq_iff p 1).mpr ⟨hhigh, hreaches⟩)
    refine gives_of_check hcheck (Or.inr rfl) fun hbounds => ?_
    refine always_word64.bind fun _ _ => always_pure fun hreaches => ?_
    exact absurd ((FloatOrder.beq_iff p 1).mpr ⟨hbounds.2, hreaches⟩) hcertain

/-- A choice with a configured probability only needs it to be a number. -/
theorem gives_chance_clampProbability (p : Float) :
    Gives (p.isNaN = false) (chance (clampProbability p)) fun chosen => 1 ≤ p → chosen = true := by
  have hcertain : 1 ≤ p → 1 ≤ clampProbability p := by
    intro hreaches
    unfold clampProbability
    rw [if_neg (FloatOrder.not_lt_of_le (FloatOrder.le_trans (by decide) hreaches))]
    split
    · decide
    · exact hreaches
  refine ((gives_chance _).mono fun chosen h hreaches => h (hcertain hreaches)).congr
    ⟨?_, clampProbability_bounds⟩
  intro hbounds
  rw [← Bool.not_eq_true]
  intro hnan
  -- What was cut off is NaN as well, but it lies above zero.
  have hnumber := (FloatOrder.isNaN_of_le hbounds.1).2
  rw [clampProbability_of_isNaN hnan, hnan] at hnumber
  cases hnumber

theorem always_chance_half : Always (chance 0.5) fun _ => True :=
  ((gives_chance 0.5).mono fun _ _ => trivial).congr (iff_true_intro ⟨by decide, by decide⟩)

/-! ## Ranges -/

/-- A range to draw from, up to an end that is not part of it: it is not empty, and its ends
and its width are finite. -/
def Spans (low high : Float) : Prop :=
  low < high ∧ low.isFinite = true ∧ high.isFinite = true ∧ (high - low).isFinite = true

instance (low high : Float) : Decidable (Spans low high) :=
  inferInstanceAs (Decidable (_ ∧ _ ∧ _ ∧ _))

/-- A range to draw from, around zero and with both ends: it is not empty, and its ends and
its steps are finite. -/
def Centred (halfWidth : Float) : Prop :=
  -halfWidth ≤ halfWidth ∧ halfWidth.isFinite = true ∧
    ((halfWidth - -halfWidth) / largestFraction).isFinite = true

instance (halfWidth : Float) : Decidable (Centred halfWidth) :=
  inferInstanceAs (Decidable (_ ∧ _ ∧ _))

theorem gives_between (low high : Float) :
    Gives (Spans low high) (between low high) fun _ => True := by
  unfold between
  refine gives_of_check ?_ (Or.inl rfl) fun _ => ?_
  · simp only [Spans, Bool.and_eq_true, decide_eq_true_eq, and_assoc]
  · exact (always_firstAccepted always_fraction _ _).bind fun _ _ => always_pure trivial

theorem gives_symmetric (halfWidth : Float) :
    Gives (Centred halfWidth) (symmetric halfWidth) fun _ => True := by
  unfold symmetric
  refine gives_of_check ?_ (Or.inl rfl) fun _ => ?_
  · simp only [Centred, Bool.and_eq_true, decide_eq_true_eq, and_assoc]
  · exact always_fraction.bind fun _ _ => always_pure trivial

end Draw

end DecaySearch.Toy
