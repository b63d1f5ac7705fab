-- Numbers as text. Positional text has the fewest digits that read back and no
-- exponent. Scientific text has a fixed number of digits.
import DecaySearch.Number.Digits

namespace DecaySearch.Number

def fill (count : Nat) (c : Char) : String := String.ofList (List.replicate count c)

def padRight (width : Nat) (text : String) : String := text ++ fill (width - text.length) ' '

def padLeft (width : Nat) (text : String) : String := fill (width - text.length) ' ' ++ text

def signText (negative : Bool) : String := if negative then "-" else ""

/-! ## Positional text -/

/-- Drops trailing zeros from a list of digits, last digit first, and counts
them in the power of ten. -/
def stripZeros : List Char → Int → List Char × Int
  | '0' :: rest, power => stripZeros rest (power + 1)
  | digits, power => (digits, power)

/-- Writes all digits around the point, with no point in a whole number. -/
def Digits.positional (d : Digits) : String :=
  let (reversed, power) := stripZeros (Nat.toDigits 10 d.coefficient).reverse d.power
  let digits := reversed.reverse
  match power with
  | .ofNat k => String.ofList digits ++ fill k '0'
  | .negSucc k =>
    let places := k + 1
    if digits.length ≤ places then
      "0." ++ fill (places - digits.length) '0' ++ String.ofList digits
    else
      let whole := digits.length - places
      String.ofList (digits.take whole) ++ "." ++ String.ofList (digits.drop whole)

/-- The fewest digits that read back, never with an exponent. A zero keeps its
sign. -/
def positional (x : Float) : String :=
  match Reading.ofFloat x with
  | .nan => "NaN"
  | .infinite negative => signText negative ++ "inf"
  | .zero negative => signText negative ++ "0"
  | .finite negative m => signText negative ++ m.shortest.positional

/-! ## Scientific text -/

/-- One digit, a point, the other digits, and the power of ten of the first
digit, whose only sign is a minus. -/
def scientificText (digits : List Char) (decade : Int) : String :=
  String.ofList (digits.take 1) ++ "." ++ String.ofList (digits.drop 1) ++ "e" ++ toString decade

/-- Scientific text with `count` significant digits, rounded to nearest. -/
def scientific (count : Nat) (x : Float) : String :=
  match Reading.ofFloat x with
  | .nan => "NaN"
  | .infinite negative => signText negative ++ "inf"
  | .zero negative => signText negative ++ scientificText (List.replicate count '0') 0
  | .finite negative m =>
    let d := m.value.digits count
    signText negative ++ scientificText (Nat.toDigits 10 d.coefficient) (d.power + count - 1)

/-! ## Bytes -/

/-- A byte as `0x` and two lower-case hexadecimal digits. -/
def hexByte (b : UInt8) : String :=
  let digit (n : Nat) : Char := (Nat.toDigits 16 n).headD '0'
  "0x" ++ String.ofList [digit (b.toNat / 16), digit (b.toNat % 16)]

end DecaySearch.Number
