-- The decimal digits of a double: a given number of them, correctly rounded, or
-- the fewest which no other double is nearer to.
import DecaySearch.Number.Binary64

namespace DecaySearch.Number

structure Digits where
  coefficient : Nat
  power : Int
  deriving DecidableEq

/-! ## A fixed number of digits -/

/-- A fraction rounded to a number of significant digits. Rounding up to the
next power of ten drops the extra digit. -/
def Fraction.digits (f : Fraction) (count : Nat) : Digits :=
  let power := f.decade + 1 - count
  let coefficient := (f.scale (-power)).round
  if coefficient = Nat.pow 10 count then ⟨Nat.pow 10 (count - 1), power + 1⟩ else ⟨coefficient, power⟩

/-! ## The fewest digits -/

/-- The numbers that a double stands for when text is read: those nearer to
it than to any other double. -/
structure Neighbourhood where
  low : Fraction
  high : Fraction
  closed : Bool

/-- Reaches half way to the next doubles. Below a power of two they are twice
as near. The ends belong to the even mantissa. -/
def Magnitude.neighbourhood (m : Magnitude) : Neighbourhood :=
  let atPower := m.mantissa = Nat.pow 2 mantissaBits ∧ leastExponent < m.exponent
  let below := if atPower then 1 else 2
  { low := .ofUnits (4 * m.mantissa - below) (m.exponent - 2)
    high := .ofUnits (4 * m.mantissa + 2) (m.exponent - 2)
    closed := m.mantissa % 2 = 0 }

def Neighbourhood.contains (n : Neighbourhood) (f : Fraction) : Bool :=
  match n.low.compare f, f.compare n.high with
  | .lt, .lt => true
  | .eq, .lt => n.closed
  | .lt, .eq => n.closed
  | _, _ => false

def Digits.value (d : Digits) : Fraction := Fraction.scale ⟨d.coefficient, 1⟩ d.power

/-- The decimal number with `count` digits that reads back as the double, if
there is one. Of the two next to the exact value the nearer is taken, and the
upper one on a tie. -/
def Magnitude.digitsOfLength? (m : Magnitude) (count : Nat) : Option Digits :=
  let power := m.value.decade + 1 - count
  let scaled := m.value.scale (-power)
  let down : Digits := ⟨scaled.floor, power⟩
  let up : Digits := ⟨scaled.floor + 1, power⟩
  let around := m.neighbourhood
  match around.contains down.value, around.contains up.value with
  | true, true =>
    if 2 * (scaled.numerator % scaled.denominator) < scaled.denominator then some down else some up
  | true, false => some down
  | false, true => some up
  | false, false => none

/-- Seventeen digits always suffice. -/
def enoughDigits : Nat := 17

/-- The fewest digits that read back as the double. -/
def Magnitude.shortest (m : Magnitude) : Digits :=
  ((List.range enoughDigits).findSome? fun n => m.digitsOfLength? (n + 1)).getD
    (m.value.digits enoughDigits)

end DecaySearch.Number
