-- Values that were read from a text, whatever its format, and how records are
-- decoded from them.

namespace DecaySearch.Text

/-! ## Values -/

/-- What a value of a text may stand for. Each format says which of its values
are numbers, texts, lists and records. -/
class Structured (ν : Type) where
  toFloat? : ν → Option Float
  toInt? : ν → Option Int
  toBool? : ν → Option Bool
  toText? : ν → Option String
  toItems? : ν → Option (List ν)
  /-- The fields of a record. The names of the fields are given in their order,
  for formats that may leave them out. -/
  toFields? : List String → ν → Option (List (String × ν))
  /-- Truth that the value stands for nothing. -/
  isAbsent : ν → Bool

section

variable {ν : Type} [Structured ν] {α : Type}

/-- A way to decode a value. Anything unexpected is malformed, and gives none. -/
abbrev Decoder (ν α : Type) := ν → Option α

def float : Decoder ν Float := Structured.toFloat?

def bool : Decoder ν Bool := Structured.toBool?

def string : Decoder ν String := Structured.toText?

def intWithin (least largest : Int) : Decoder ν Int := fun v => do
  let n ← Structured.toInt? v
  if least ≤ n && n ≤ largest then some n else none

def natBelow (limit : Nat) : Decoder ν Nat := fun v => do
  let n ← Structured.toInt? v
  if 0 ≤ n && n < limit then some n.toNat else none

def byte : Decoder ν UInt8 := fun v => (natBelow (Nat.pow 2 8) v).map UInt8.ofNat

def word16 : Decoder ν UInt16 := fun v => (natBelow (Nat.pow 2 16) v).map UInt16.ofNat

def word64 : Decoder ν UInt64 := fun v => (natBelow (Nat.pow 2 64) v).map UInt64.ofNat

def list (item : Decoder ν α) : Decoder ν (List α) := fun v => do
  let items ← Structured.toItems? v
  items.mapM item

def optional (item : Decoder ν α) : Decoder ν (Option α) := fun v =>
  if Structured.isAbsent v then some none else (item v).map some

/-! ## Records -/

def distinct : List String → Bool
  | [] => true
  | name :: rest => !rest.contains name && distinct rest

/-- The known fields of a record. A known field must not be repeated. Unknown
fields are refused, or ignored where the record is open. -/
def fields (names : List String) (isOpen : Bool) (v : ν) : Option (List (String × ν)) := do
  let all ← Structured.toFields? names v
  let known := all.filter fun (name, _) => names.contains name
  if !isOpen && known.length ≠ all.length then none
  else if distinct (known.map (·.1)) then some known
  else none

def required (fields : List (String × ν)) (name : String) (item : Decoder ν α) : Option α := do
  let v ← fields.lookup name
  item v

def defaulted (fields : List (String × ν)) (name : String) (fallback : α) (item : Decoder ν α) :
    Option α :=
  match fields.lookup name with
  | none => some fallback
  | some v => item v

end

end DecaySearch.Text
