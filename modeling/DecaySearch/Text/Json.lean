-- JSON texts. The reader is strict, and keeps numbers as they are written, so
-- that each field decides which numbers it takes.
import DecaySearch.Number.Decimal
import DecaySearch.Number.Notation
import DecaySearch.Text.Record

namespace DecaySearch.Text

/-- A JSON value. Objects keep the order and the repetitions of their fields. -/
inductive Json
  | null
  | bool (value : Bool)
  | number (value : Number.Decimal)
  | string (value : String)
  | array (items : List Json)
  | object (fields : List (String × Json))

namespace Json

/-! ## Reading -/

/-- A reader takes characters from the front and gives back the rest. -/
abbrev Reader (α : Type) := List Char → Option (α × List Char)

def isBlank (c : Char) : Bool := c = ' ' || c = '\n' || c = '\t' || c = '\r'

def skipBlanks (cs : List Char) : List Char := cs.dropWhile isBlank

def digitValue (c : Char) : Nat := c.toNat - '0'.toNat

def digitsValue (digits : List Char) : Nat :=
  digits.foldl (fun n c => 10 * n + digitValue c) 0

/-- Reads a whole number without a leading zero. -/
def readWhole : Reader (List Char)
  | '0' :: rest => some (['0'], rest)
  | cs =>
    match cs.takeWhile Char.isDigit, cs.dropWhile Char.isDigit with
    | [], _ => none
    | digits, rest => some (digits, rest)

/-- Reads the digits behind a point, if there is a point. -/
def readFraction : Reader (List Char)
  | '.' :: rest =>
    match rest.takeWhile Char.isDigit, rest.dropWhile Char.isDigit with
    | [], _ => none
    | digits, rest => some (digits, rest)
  | cs => some ([], cs)

/-- Reads the digits of an exponent behind its sign. -/
def readPower (negative : Bool) (cs : List Char) : Option (Int × List Char) :=
  match cs.takeWhile Char.isDigit, cs.dropWhile Char.isDigit with
  | [], _ => none
  | digits, rest =>
    let power : Int := digitsValue digits
    some (if negative then -power else power, rest)

/-- Reads an exponent, if there is one. -/
def readExponent : List Char → Option (Option Int × List Char)
  | c :: rest =>
    if c = 'e' || c = 'E' then
      match rest with
      | '-' :: rest => (readPower true rest).map fun (p, rest) => (some p, rest)
      | '+' :: rest => (readPower false rest).map fun (p, rest) => (some p, rest)
      | rest => (readPower false rest).map fun (p, rest) => (some p, rest)
    else some (none, c :: rest)
  | [] => some (none, [])

/-- Reads a number behind its sign. -/
def readMagnitude (negative : Bool) (cs : List Char) : Option (Number.Decimal × List Char) := do
  let (whole, rest) ← readWhole cs
  let (fraction, rest) ← readFraction rest
  let (power, rest) ← readExponent rest
  some
    ({ negative
       digits := digitsValue (whole ++ fraction)
       power := power.getD 0 - fraction.length
       whole := fraction.isEmpty && power.isNone },
     rest)

def readNumber : Reader Number.Decimal
  | '-' :: rest => readMagnitude true rest
  | cs => readMagnitude false cs

def hexValue? (c : Char) : Option Nat :=
  if c.isDigit then some (c.toNat - '0'.toNat)
  else if 'a' ≤ c && c ≤ 'f' then some (c.toNat - 'a'.toNat + 10)
  else if 'A' ≤ c && c ≤ 'F' then some (c.toNat - 'A'.toNat + 10)
  else none

def readHex : Nat → Nat → List Char → Option (Nat × List Char)
  | 0, value, cs => some (value, cs)
  | count + 1, value, c :: rest =>
    match hexValue? c with
    | none => none
    | some digit => readHex count (16 * value + digit) rest
  | _ + 1, _, [] => none

/-- The character that two surrogates stand for. -/
def joinSurrogates (high low : Nat) : Char :=
  Char.ofNat (0x10000 + (high - 0xD800) * 0x400 + (low - 0xDC00))

/-- Reads the digits of an escaped character. Surrogates must come in pairs. -/
def readUnicode (cs : List Char) : Option (Char × List Char) := do
  let (first, rest) ← readHex 4 0 cs
  if 0xDC00 ≤ first && first < 0xE000 then none
  else if 0xD800 ≤ first && first < 0xDC00 then
    match rest with
    | '\\' :: 'u' :: rest => do
      let (second, rest) ← readHex 4 0 rest
      if 0xDC00 ≤ second && second < 0xE000 then some (joinSurrogates first second, rest)
      else none
    | _ => none
  else some (Char.ofNat first, rest)

/-- Reads the character behind a backslash. -/
def readEscape : Reader Char
  | '"' :: rest => some ('"', rest)
  | '\\' :: rest => some ('\\', rest)
  | '/' :: rest => some ('/', rest)
  | 'b' :: rest => some ('\x08', rest)
  | 'f' :: rest => some ('\x0c', rest)
  | 'n' :: rest => some ('\n', rest)
  | 'r' :: rest => some ('\r', rest)
  | 't' :: rest => some ('\t', rest)
  | 'u' :: rest => readUnicode rest
  | _ => none

/-- Reads a string behind its opening quote. Each step takes a character at
least, so the length of the text is enough fuel. Characters before the blank
must be escaped. The characters so far are given last one first. -/
def readChars : Nat → List Char → List Char → Option (String × List Char)
  | 0, _, _ => none
  | _ + 1, _, [] => none
  | _ + 1, done, '"' :: rest => some (String.ofList done.reverse, rest)
  | fuel + 1, done, '\\' :: rest =>
    match readEscape rest with
    | none => none
    | some (c, rest) => readChars fuel (c :: done) rest
  | fuel + 1, done, c :: rest => if c < ' ' then none else readChars fuel (c :: done) rest

def readString (fuel : Nat) (cs : List Char) : Option (String × List Char) := readChars fuel [] cs

def readWord (word : String) (value : Json) (cs : List Char) : Option (Json × List Char) :=
  if word.toList.isPrefixOf cs then some (value, cs.drop word.length) else none

/-- Values may be nested this deep. -/
def maxDepth : Nat := 127

mutual

/-- Reads a value behind blanks, with at most `depth` values around each other.
Every step of the reader takes a character at least, or goes from a list to its
items, so twice the length of the text is enough fuel. -/
def readValue : Nat → Nat → List Char → Option (Json × List Char)
  | 0, _, _ => none
  | fuel + 1, depth, cs =>
    match skipBlanks cs, depth with
    | 'n' :: rest, _ => readWord "null" .null ('n' :: rest)
    | 't' :: rest, _ => readWord "true" (.bool true) ('t' :: rest)
    | 'f' :: rest, _ => readWord "false" (.bool false) ('f' :: rest)
    | '"' :: rest, _ => (readString fuel rest).map fun (s, rest) => (.string s, rest)
    | '[' :: _, 0 => none
    | '[' :: rest, depth + 1 =>
      match skipBlanks rest with
      | ']' :: rest => some (.array [], rest)
      | rest => (readItems fuel depth [] rest).map fun (items, rest) => (.array items, rest)
    | '\x7b' :: _, 0 => none
    | '\x7b' :: rest, depth + 1 =>
      match skipBlanks rest with
      | '\x7d' :: rest => some (.object [], rest)
      | rest => (readFields fuel depth [] rest).map fun (fields, rest) => (.object fields, rest)
    | rest, _ => (readNumber rest).map fun (n, rest) => (.number n, rest)

/-- Reads the items of an array up to its closing bracket. -/
def readItems : Nat → Nat → List Json → List Char → Option (List Json × List Char)
  | 0, _, _, _ => none
  | fuel + 1, depth, done, cs =>
    match readValue fuel depth cs with
    | none => none
    | some (item, rest) =>
      match skipBlanks rest with
      | ',' :: rest => readItems fuel depth (item :: done) rest
      | ']' :: rest => some ((item :: done).reverse, rest)
      | _ => none

/-- Reads the fields of an object up to its closing brace. -/
def readFields : Nat → Nat → List (String × Json) → List Char →
    Option (List (String × Json) × List Char)
  | 0, _, _, _ => none
  | fuel + 1, depth, done, cs =>
    match skipBlanks cs with
    | '"' :: rest =>
      match readString fuel rest with
      | none => none
      | some (name, rest) =>
        match skipBlanks rest with
        | ':' :: rest =>
          match readValue fuel depth rest with
          | none => none
          | some (value, rest) =>
            match skipBlanks rest with
            | ',' :: rest => readFields fuel depth ((name, value) :: done) rest
            | '\x7d' :: rest => some (((name, value) :: done).reverse, rest)
            | _ => none
        | _ => none
    | _ => none

end

/-- Reads a text that holds one value and nothing else. -/
def ofText? (text : String) : Option Json :=
  let cs := text.toList
  match readValue (2 * cs.length + 2) maxDepth cs with
  | none => none
  | some (value, rest) => if (skipBlanks rest).isEmpty then some value else none

/-! ## Writing -/

def escape (c : Char) : String :=
  if c = '"' then "\\\""
  else if c = '\\' then "\\\\"
  else if c = '\n' then "\\n"
  else if c = '\r' then "\\r"
  else if c = '\t' then "\\t"
  else if c = '\x08' then "\\b"
  else if c = '\x0c' then "\\f"
  else if c < ' ' then
    let digit (n : Nat) : Char := (Nat.toDigits 16 n).headD '0'
    "\\u00" ++ String.ofList [digit (c.toNat / 16), digit (c.toNat % 16)]
  else c.toString

def quote (s : String) : String := "\"" ++ String.join (s.toList.map escape) ++ "\""

/-- A double other than zero as its fewest digits. Whole numbers keep one place
behind the point. The exponent is written for very large and very small numbers
only, and always with its sign. -/
def digitsText (d : Number.Digits) : String :=
  let (reversed, power) := Number.stripZeros (Nat.toDigits 10 d.coefficient).reverse d.power
  let digits := reversed.reverse
  let point : Int := digits.length + power
  if 0 ≤ power && point ≤ 16 then
    String.ofList digits ++ Number.fill power.toNat '0' ++ ".0"
  else if -5 < point && point ≤ 16 then d.positional
  else
    let rest := digits.drop 1
    let tail := if rest.isEmpty then "" else "." ++ String.ofList rest
    let sign := if 0 < point then "e+" else "e"
    String.ofList (digits.take 1) ++ tail ++ sign ++ toString (point - 1)

/-- Truth that a number is written as an integer. Other numbers, and integers
beyond 64 bits, are written as doubles. -/
def isInteger (d : Number.Decimal) : Bool :=
  match d.toInt? with
  | none => false
  | some n => -9223372036854775808 ≤ n && n < 18446744073709551616

def numberText (d : Number.Decimal) : String :=
  let sign := Number.signText d.negative
  if isInteger d then sign ++ toString d.digits
  else
    match Number.Reading.ofFloat d.toFloat with
    | .finite _ m => sign ++ digitsText m.shortest
    | _ => sign ++ "0.0"

mutual

/-- The shortest text of a value, without blanks. -/
def text : Json → String
  | .null => "null"
  | .bool b => toString b
  | .number n => numberText n
  | .string s => quote s
  | .array items => "[" ++ ",".intercalate (itemTexts items) ++ "]"
  | .object fields => "\x7b" ++ ",".intercalate (fieldTexts fields) ++ "\x7d"

def itemTexts : List Json → List String
  | [] => []
  | item :: rest => item.text :: itemTexts rest

def fieldTexts : List (String × Json) → List String
  | [] => []
  | (name, value) :: rest => (quote name ++ ":" ++ value.text) :: fieldTexts rest

end

def ofNat (n : Nat) : Json := .number ⟨false, n, 0, true⟩

/-! ## Values as records -/

instance : Structured Json where
  toFloat?
    | .number n => n.toFloat?
    | _ => none
  toInt?
    | .number n => n.toInt?
    | _ => none
  toBool?
    | .bool b => some b
    | _ => none
  toText?
    | .string s => some s
    | _ => none
  toItems?
    | .array items => some items
    | _ => none
  toFields?
    | _, .object fields => some fields
    | names, .array items =>
      if items.length ≤ names.length then some (names.zip items) else none
    | _, _ => none
  isAbsent
    | .null => true
    | _ => false

end Json

end DecaySearch.Text
