-- The characters of YAML texts, and places between them.

namespace DecaySearch.Text.Yaml

/-! ## Characters -/

/-- Truth that a character may stand in a text. -/
def isPrintable (c : Char) : Bool :=
  let n := c.toNat
  n = 0x09 || n = 0x0A || n = 0x0D || (0x20 ≤ n && n ≤ 0x7E) || n = 0x85
    || (0xA0 ≤ n && n ≤ 0xFFFD) || 0x10000 ≤ n

def isBlank (c : Char) : Bool := c = ' ' || c = '\t'

/-- Truth that a character ends a line, in a text with unified line ends. -/
def isBreak (c : Char) : Bool := c = '\n' || c = '\u2028' || c = '\u2029'

/-- Writes the line ends that stand for nothing else as one character. The line
separator and the paragraph separator are kept apart from them. -/
def unifyBreaks : List Char → List Char
  | '\r' :: '\n' :: rest => '\n' :: unifyBreaks rest
  | '\r' :: rest => '\n' :: unifyBreaks rest
  | '\u0085' :: rest => '\n' :: unifyBreaks rest
  | c :: rest => c :: unifyBreaks rest
  | [] => []

/-- Truth that a word ends here. -/
def endsWord : List Char → Bool
  | [] => true
  | c :: _ => isBlank c || isBreak c

/-- Truth that a character marks a part of a flow collection. -/
def isFlowMark (c : Char) : Bool :=
  c = ',' || c = '[' || c = ']' || c = '\x7b' || c = '\x7d'

/-! ## Places -/

/-- How far a text was read. The index counts bytes. -/
structure Place where
  index : Nat
  line : Nat
  column : Nat
  deriving DecidableEq

namespace Place

def start : Place := ⟨0, 0, 0⟩

def behind (p : Place) (c : Char) : Place :=
  if isBreak c then ⟨p.index + c.utf8Size, p.line + 1, 0⟩
  else ⟨p.index + c.utf8Size, p.line, p.column + 1⟩

/-- The place behind some characters of one line, each of a single byte. -/
def advance (p : Place) (count : Nat) : Place := ⟨p.index + count, p.line, p.column + count⟩

end Place

/-- A place, and the text from there on. -/
structure Cursor where
  rest : List Char
  place : Place
  deriving DecidableEq

/-- Truth that three of a character stand at the beginning of a line, and
nothing else in that word. Dashes begin a document and points end it. -/
def Cursor.atMarker (c : Cursor) (mark : Char) : Bool :=
  c.place.column = 0 && match c.rest with
    | a :: b :: d :: rest => a = mark && b = mark && d = mark && endsWord rest
    | _ => false

/-- Truth that a document begins or ends here. -/
def Cursor.atAnyMarker (c : Cursor) : Bool := c.atMarker '-' || c.atMarker '.'

end DecaySearch.Text.Yaml
