-- Decimal numbers as they stand in a text, and the double nearest to them.

namespace DecaySearch.Number

/-- A decimal number `± digits * 10 ^ power`. It is whole if its text has
neither a point nor an exponent. -/
structure Decimal where
  negative : Bool
  digits : Nat
  power : Int
  whole : Bool
  deriving DecidableEq

/-- Beyond this many digits before the point, every number is above the
largest double. -/
def mostDigits : Int := 310

/-- Below this power of ten, every number is nearer to zero than to the
smallest double. -/
def leastPower : Int := -345

/-- The double nearest to a decimal number, which is infinite above the
largest double. Far out of range the answer is known without computing a
power of ten. -/
def Decimal.toFloat (d : Decimal) : Float :=
  let size : Int := (Nat.toDigits 10 d.digits).length + d.power
  let magnitude : Float :=
    if d.digits = 0 then 0
    else if mostDigits < size then 1 / 0
    else if size < leastPower then 0
    else match d.power with
      | .ofNat k => OfScientific.ofScientific d.digits false k
      | .negSucc k => OfScientific.ofScientific d.digits true (k + 1)
  if d.negative then -magnitude else magnitude

/-- The double nearest to a decimal number, unless it is out of range. -/
def Decimal.toFloat? (d : Decimal) : Option Float :=
  let x := d.toFloat
  if x.isFinite then some x else none

/-- The integer that a decimal number is, if it is written as one. The text
`-0` is not an integer, because it has a sign that integers cannot keep. -/
def Decimal.toInt? (d : Decimal) : Option Int :=
  if !d.whole then none
  else if !d.negative then some d.digits
  else if d.digits = 0 then none
  else some (-d.digits)

end DecaySearch.Number
