-- Streams of random numbers: xoshiro256+ on words of 64 bits, seeded by
-- SplitMix64, and the draws that toy events are made of.
import DecaySearch.Fault

namespace DecaySearch.Toy

/-! ## The generator of words -/

/-- The constant that SplitMix64 counts in. It is odd. -/
def goldenGamma : UInt64 := 0x9E3779B97F4A7C15

def splitMix (word : UInt64) : UInt64 :=
  let z := (word ^^^ (word >>> 30)) * 0xBF58476D1CE4E5B9
  let z := (z ^^^ (z >>> 27)) * 0x94D049BB133111EB
  z ^^^ (z >>> 31)

structure Stream where
  s0 : UInt64
  s1 : UInt64
  s2 : UInt64
  s3 : UInt64
  deriving DecidableEq

def rotateLeft (word : UInt64) (count : UInt64) : UInt64 :=
  (word <<< count) ||| (word >>> (64 - count))

namespace Stream

/-- A stream starts from four outputs of SplitMix64. -/
def ofSeed (seed : UInt64) : Stream where
  s0 := splitMix (seed + goldenGamma)
  s1 := splitMix (seed + 2 * goldenGamma)
  s2 := splitMix (seed + 3 * goldenGamma)
  s3 := splitMix (seed + 4 * goldenGamma)

/-- The next word, and the state behind it. -/
def next (s : Stream) : UInt64 × Stream :=
  let s2 := s.s2 ^^^ s.s0
  let s3 := s.s3 ^^^ s.s1
  (s.s0 + s.s3,
   { s0 := s.s0 ^^^ s3
     s1 := s.s1 ^^^ s2
     s2 := s2 ^^^ (s.s1 <<< 17)
     s3 := rotateLeft s3 45 })

end Stream

/-! ## Draws -/

/-- A computation that takes words from a stream. -/
abbrev Draw := StateT Stream (Except Fault)

namespace Draw

def fail {α : Type} (fault : Fault) : Draw α := fun _ => .error fault

def word64 : Draw UInt64 := fun s => .ok s.next

/-- The upper half of a word. -/
def word32 : Draw UInt64 := do
  let w ← word64
  pure (w >>> 32)

/-- The lowest byte of the upper half of a word. -/
def byte : Draw UInt8 := do
  let w ← word32
  pure w.toUInt8

/-- How often a draw is tried. Draws go on until one is accepted, and at least half of all
words are, so that one stream in 2 ^ 1000 would need more tries. But nothing rules such a
stream out, and the bound keeps the draws total. -/
def maxTries : Nat := 1000

/-- Repeats a draw until its result is accepted. The last try is taken as it comes. To run out
of tries is no fault, since a draw that goes on has none either: it only ever fails on its
range or its probability, before the first try. -/
def firstAccepted {α : Type} (draw : Draw α) (accepts : α → Bool) : Nat → Draw α
  | 0 => draw
  | tries + 1 => do
    let a ← draw
    if accepts a then pure a else firstAccepted draw accepts tries

/-- A number of 53 bits in [0, 1). -/
def unitInterval : Draw Float := do
  let w ← word64
  pure ((w >>> 11).toFloat * Float.ofScientific 11102230246251565 true 32)

/-- A number of 52 bits in [0, 1). -/
def fraction : Draw Float := do
  let w ← word64
  pure ((w >>> 12).toFloat * Float.ofScientific 2220446049250313 true 31)

/-- A choice that is true with a probability. Certainty takes no word. -/
def chance (p : Float) : Draw Bool :=
  if p == 1 then pure true
  else if 0 ≤ p && p < 1 then do
    let w ← word64
    pure (w < (p * 18446744073709551616.0).toUInt64)
  else fail .invalidProbability

/-- A configured probability, cut off at the ends of [0, 1]. -/
def clampProbability (p : Float) : Float := if p < 0 then 0 else if 1 < p then 1 else p

/-- A number from `low` up to `high`, which is not part of the range. -/
def between (low high : Float) : Draw Float :=
  if low < high && low.isFinite && high.isFinite && (high - low).isFinite then do
    let u ← firstAccepted fraction (fun u => u * (high - low) + low < high) maxTries
    pure (u * (high - low) + low)
  else fail .emptyRange

/-- The largest number that `fraction` gives. -/
def largestFraction : Float := 1.0 - 2.220446049250313e-16

/-- The largest step, from a first one downwards, that does not lead above the
upper end of a range. The first one is off by rounding only, so a few floats further down
there is one, long before the tries run out. -/
def fitStep (low high : Float) : Nat → Float → Float
  | 0, step => step
  | tries + 1, step =>
    if high < step * largestFraction + low then
      fitStep low high tries (Float.ofBits (step.toBits - 1))
    else step

/-- A number from `-halfWidth` to `halfWidth`, both of which may come up. -/
def symmetric (halfWidth : Float) : Draw Float :=
  let low := -halfWidth
  let first := (halfWidth - low) / largestFraction
  if low ≤ halfWidth && halfWidth.isFinite && first.isFinite then do
    let step := fitStep low halfWidth maxTries first
    let u ← fraction
    pure (u * step + low)
  else fail .emptyRange

/-- The upper and the lower word of a product of two words. -/
def wideProduct (a b : UInt64) : UInt64 × UInt64 :=
  let product := a.toNat * b.toNat
  (UInt64.ofNat (product / Nat.pow 2 64), UInt64.ofNat (product % Nat.pow 2 64))

/-- A range moved up until its highest bit is set. -/
def shiftUp (range : UInt64) : UInt64 :=
  range <<< UInt64.ofNat (63 - range.toNat.log2)

/-- A whole number from zero to `largest`. Products whose lower word is too
large are drawn again, so that every number is as likely. -/
def upTo (largest : UInt64) : Draw UInt64 :=
  let range := largest + 1
  if range = 0 then word64
  else do
    let zone := shiftUp range - 1
    let product ← firstAccepted
      (do let w ← word64; pure (wideProduct w range)) (fun p => p.2 ≤ zone) maxTries
    pure product.1

/-- A whole number from `low` up to `high`, which is not part of the range. -/
def between16 (low high : UInt16) : Draw UInt16 := do
  let range := high.toUInt64 - low.toUInt64
  let zone : UInt64 := 0xFFFFFFFF - (0x100000000 - range) % range
  let product ← firstAccepted
    (do let w ← word32; pure (w * range)) (fun p => p % 0x100000000 ≤ zone) maxTries
  pure (low + (product >>> 32).toUInt16)

end Draw

end DecaySearch.Toy
