-- The exact value of a double. A finite double other than zero is a whole
-- number times a power of two, and all decimal text is computed from that pair.

namespace DecaySearch.Number

/-- A positive number of the form `mantissa * 2 ^ exponent`. -/
structure Magnitude where
  mantissa : Nat
  exponent : Int
  deriving DecidableEq

/-- What the bits of a double stand for. -/
inductive Reading
  | nan
  | infinite (negative : Bool)
  | zero (negative : Bool)
  | finite (negative : Bool) (magnitude : Magnitude)
  deriving DecidableEq

/-- The number of stored bits of the mantissa. -/
def mantissaBits : Nat := 52

/-- The exponent of the smallest positive doubles. -/
def leastExponent : Int := -1074

/-- The exponent field that stands for infinities and NaN. -/
def specialField : Nat := 2047

/-- Reads the sign bit, the exponent field and the mantissa field. A field of
zero has no leading one, and shares its exponent with the field of one. -/
def Reading.ofFloat (x : Float) : Reading :=
  let bits := x.toBits.toNat
  let negative := bits.testBit 63
  let field := bits / Nat.pow 2 mantissaBits % (specialField + 1)
  let fraction := bits % Nat.pow 2 mantissaBits
  if field = specialField then
    if fraction = 0 then .infinite negative else .nan
  else if field = 0 then
    if fraction = 0 then .zero negative else .finite negative ⟨fraction, leastExponent⟩
  else
    .finite negative ⟨fraction + Nat.pow 2 mantissaBits, field - 1 + leastExponent⟩

/-- A positive fraction of whole numbers. -/
structure Fraction where
  numerator : Nat
  denominator : Nat
  deriving DecidableEq

/-- A number of units, each worth `2 ^ exponent`, as a fraction. -/
def Fraction.ofUnits (units : Nat) (exponent : Int) : Fraction :=
  match exponent with
  | .ofNat e => ⟨units * Nat.pow 2 e, 1⟩
  | .negSucc e => ⟨units, Nat.pow 2 (e + 1)⟩

def Magnitude.value (m : Magnitude) : Fraction := .ofUnits m.mantissa m.exponent

def Fraction.scale (f : Fraction) (power : Int) : Fraction :=
  match power with
  | .ofNat k => ⟨f.numerator * Nat.pow 10 k, f.denominator⟩
  | .negSucc k => ⟨f.numerator, f.denominator * Nat.pow 10 (k + 1)⟩

def Fraction.floor (f : Fraction) : Nat := f.numerator / f.denominator

/-- The whole number nearest to a fraction. A half goes to the even neighbour. -/
def Fraction.round (f : Fraction) : Nat :=
  let whole := f.numerator / f.denominator
  let rest := 2 * (f.numerator % f.denominator)
  if rest < f.denominator then whole
  else if f.denominator < rest then whole + 1
  else whole + whole % 2

def Fraction.compare (f g : Fraction) : Ordering :=
  Ord.compare (f.numerator * g.denominator) (g.numerator * f.denominator)

/-- Truth that a fraction is at least a power of ten. -/
def Fraction.reaches (f : Fraction) (power : Int) : Bool :=
  match power with
  | .ofNat k => f.denominator * Nat.pow 10 k ≤ f.numerator
  | .negSucc k => f.denominator ≤ f.numerator * Nat.pow 10 (k + 1)

/-- The power of ten of the leading digit. The number of bits gives it up to
a small error, which comparing with the powers above settles. -/
def Fraction.decade (f : Fraction) : Int :=
  let bits : Int := f.numerator.log2 - f.denominator.log2
  let low := bits * 30103 / 100000 - 2
  if f.reaches (low + 4) then low + 4
  else if f.reaches (low + 3) then low + 3
  else if f.reaches (low + 2) then low + 2
  else if f.reaches (low + 1) then low + 1
  else low

end DecaySearch.Number
