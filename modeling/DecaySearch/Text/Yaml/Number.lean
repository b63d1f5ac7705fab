-- Plain scalars of YAML texts as numbers and truth values. What a plain scalar
-- stands for is only asked by the field that it is the value of.
import DecaySearch.Number.Decimal
import DecaySearch.Text.Yaml.Scalar

namespace DecaySearch.Text.Yaml

/-! ## Null and truth values -/

def isNullText (s : String) : Bool := ["", "~", "null", "Null", "NULL"].contains s

def boolOf? (s : String) : Option Bool :=
  if ["true", "True", "TRUE"].contains s then some true
  else if ["false", "False", "FALSE"].contains s then some false
  else none

/-! ## Whole numbers -/

def digitsValue? (base : Nat) (cs : List Char) : Option Nat := do
  let digits ← cs.mapM hexValue?
  if digits.isEmpty || digits.any (base ≤ ·) then none
  else some (digits.foldl (fun n d => base * n + d) 0)

def dropPlus : List Char → List Char
  | '+' :: rest => rest
  | cs => cs

/-- A natural number in base ten, sixteen, eight or two. Superfluous leading
zeros make it a text. -/
def naturalOf? (s : String) : Option Nat :=
  match dropPlus s.toList with
  | '0' :: 'x' :: rest => digitsValue? 16 rest
  | '0' :: 'o' :: rest => digitsValue? 8 rest
  | '0' :: 'b' :: rest => digitsValue? 2 rest
  | ['0'] => some 0
  | '0' :: _ => none
  | cs => digitsValue? 10 cs

/-! ## Doubles -/

def exponentOf? (cs : List Char) : Option Int :=
  match cs with
  | '-' :: rest => (digitsValue? 10 rest).map fun n => -(n : Int)
  | '+' :: rest => (digitsValue? 10 rest).map fun n => (n : Int)
  | rest => (digitsValue? 10 rest).map fun n => (n : Int)

/-- A decimal number behind its sign. Digits may be missing before or behind
the point, but not both. -/
def decimalOf? (negative : Bool) (cs : List Char) : Option Number.Decimal := do
  let whole := cs.takeWhile Char.isDigit
  let rest := cs.dropWhile Char.isDigit
  let (fraction, rest) := match rest with
    | '.' :: rest => (rest.takeWhile Char.isDigit, rest.dropWhile Char.isDigit)
    | rest => ([], rest)
  let power ← match rest with
    | [] => some 0
    | 'e' :: rest => exponentOf? rest
    | 'E' :: rest => exponentOf? rest
    | _ => none
  let digits ← digitsValue? 10 (whole ++ fraction)
  some { negative, digits, power := power - fraction.length, whole := false }

/-- A double: a decimal number in range, an infinity or NaN. -/
def doubleOf? (s : String) : Option Float :=
  if [".inf", ".Inf", ".INF", "+.inf", "+.Inf", "+.INF"].contains s then some (1 / 0)
  else if ["-.inf", "-.Inf", "-.INF"].contains s then some (-(1 / 0))
  else if [".nan", ".NaN", ".NAN"].contains s then some (0 / 0)
  else
    let decimal := match s.toList with
      | '-' :: rest => decimalOf? true rest
      | '+' :: rest => decimalOf? false rest
      | cs => decimalOf? false cs
    decimal.bind Number.Decimal.toFloat?

end DecaySearch.Text.Yaml
