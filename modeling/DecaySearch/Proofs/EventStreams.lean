-- Every toy event draws from a stream of its own. No step from the index of an event to the
-- state of its stream loses anything, although additions and products wrap.
import Mathlib.Data.Nat.ModEq
import Mathlib.Data.Nat.Prime.Basic
import DecaySearch.Toy.Generator

namespace DecaySearch.Toy

/-! ## Steps that lose nothing -/

/-- An odd factor can be cancelled, also from products that wrap. -/
theorem mul_odd_inj {factor : UInt64} (hodd : Odd factor.toNat) {a b : UInt64} :
    a * factor = b * factor ↔ a = b := by
  refine ⟨fun h => ?_, fun h => by rw [h]⟩
  have hcoprime : Nat.Coprime (2 ^ 64) factor.toNat :=
    Nat.Coprime.pow_left 64 (Nat.coprime_two_left.mpr hodd)
  have hproduct : a.toNat * factor.toNat ≡ b.toNat * factor.toNat [MOD 2 ^ 64] := by
    have hwords := congrArg UInt64.toNat h
    rwa [UInt64.toNat_mul, UInt64.toNat_mul] at hwords
  have hmod := Nat.ModEq.cancel_right_of_coprime hcoprime hproduct
  exact UInt64.toNat_inj.mp (Nat.ModEq.eq_of_lt_of_lt hmod a.toNat_lt b.toNat_lt)

/-- The upper bits of a word can be mixed into its lower bits and be taken out again. -/
theorem xorShift_inj {shift : UInt64} (hshift : shift.toNat % 64 ≠ 0) {a b : UInt64} :
    a ^^^ (a >>> shift) = b ^^^ (b >>> shift) ↔ a = b := by
  refine ⟨fun h => ?_, fun h => by rw [h]⟩
  -- The difference of the two words is its own upper part, which only zero is.
  have hself : a ^^^ b = (a ^^^ b) >>> shift := by
    rw [← UInt64.xor_eq_zero_iff] at h ⊢
    rw [UInt64.shiftRight_xor, ← h]
    ac_rfl
  have hword : (a ^^^ b).toNat = (a ^^^ b).toNat / 2 ^ (shift.toNat % 64) := by
    have hwords := congrArg UInt64.toNat hself
    rwa [UInt64.toNat_shiftRight, Nat.shiftRight_eq_div_pow] at hwords
  have hzero : (a ^^^ b).toNat = 0 := by
    by_contra hpositive
    have hless := Nat.div_lt_self (Nat.pos_of_ne_zero hpositive) (Nat.one_lt_two_pow hshift)
    omega
  exact UInt64.xor_eq_zero_iff.mp (UInt64.toNat_inj.mp hzero)

/-! ## Seeds and streams -/

theorem splitMix_inj {a b : UInt64} : splitMix a = splitMix b ↔ a = b := by
  unfold splitMix
  dsimp only
  rw [xorShift_inj (by decide), mul_odd_inj (by decide), xorShift_inj (by decide),
    mul_odd_inj (by decide), xorShift_inj (by decide)]

theorem eventSeed_inj {seed index other : UInt64} :
    eventSeed seed index = eventSeed seed other ↔ index = other := by
  unfold eventSeed
  rw [UInt64.xor_right_inj, mul_odd_inj (by decide), UInt64.add_left_inj]

/-- Streams from different seeds differ in their first word already. -/
theorem ofSeed_inj {a b : UInt64} : Stream.ofSeed a = Stream.ofSeed b ↔ a = b := by
  refine ⟨fun h => ?_, fun h => by rw [h]⟩
  have hfirst : splitMix (a + goldenGamma) = splitMix (b + goldenGamma) := congrArg Stream.s0 h
  rwa [splitMix_inj, UInt64.add_left_inj] at hfirst

/-! ## Events -/

namespace Generator

/-- The event of an index, drawn from any stream. -/
def generateFrom (g : Generator) (stream : Stream) (index : UInt64) : Except Fault Event := do
  let ((primary, accepted), stream) ← drawVertex g.settings stream
  let (v0s, workshop) ← addAll g.settings primary index ⟨stream, firstId index, []⟩
  pure { primaryVertex := primary, accepted, tracks := workshop.made.reverse, v0s }

theorem generate_eq (g : Generator) (index : UInt64) :
    g.generate index = g.generateFrom (.ofSeed (eventSeed g.settings.seed index)) index := rfl

end Generator

/-- Whatever the seed of a run is, no two of its events share the seed of their streams, nor
the streams that they are drawn from. -/
theorem every_event_draws_from_its_own_stream (seed index other : UInt64) :
    (eventSeed seed index = eventSeed seed other ↔ index = other) ∧
      (Stream.ofSeed (eventSeed seed index) = Stream.ofSeed (eventSeed seed other) ↔
        index = other) ∧
      ∀ s : ToySettings, Generator.generate ⟨{ s with seed }⟩ index =
        Generator.generateFrom ⟨{ s with seed }⟩ (.ofSeed (eventSeed seed index)) index :=
  ⟨eventSeed_inj, ofSeed_inj.trans eventSeed_inj, fun _ => Generator.generate_eq _ index⟩

end DecaySearch.Toy
