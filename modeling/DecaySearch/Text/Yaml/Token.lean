-- Tokens of YAML texts. Indentation is turned into tokens that open and close
-- blocks. What is a key is only known at its colon, so that tokens for it are put
-- in front of what was read before.
import DecaySearch.Text.Yaml.Scalar

namespace DecaySearch.Text.Yaml

inductive Token
  | documentStart
  | documentEnd
  | sequenceStart
  | mappingStart
  /-- The end of a block sequence or mapping. -/
  | blockEnd
  | item
  | flowSequenceStart
  | flowSequenceEnd
  | flowMappingStart
  | flowMappingEnd
  | comma
  | key
  | value
  | scalar (text : String) (plain : Bool)
  deriving DecidableEq

/-! ## Keys -/

/-- Something that may turn out to be a key. -/
structure KeyStart where
  /-- The number of tokens before it. -/
  position : Nat
  place : Place
  /-- Truth that nothing but a key can stand there. -/
  required : Bool
  deriving DecidableEq

/-- The largest distance between the beginning of a key and its colon. -/
def longestKey : Nat := 1024

/-- Truth that a place is too far behind a key for its colon. -/
def KeyStart.isOver (k : KeyStart) (p : Place) : Bool :=
  k.place.line < p.line || k.place.index + longestKey < p.index

/-- Gives up a key that did not come to its colon, which must not be required. -/
def KeyStart.expire (p : Place) : Option KeyStart → Option (Option KeyStart)
  | none => some none
  | some k =>
    if !k.isOver p then some (some k)
    else if k.required then none
    else some none

/-! ## The state of a scan -/

/-- What is known about a text up to a place. -/
structure Scan where
  cursor : Cursor
  /-- The tokens so far, last one first. -/
  tokens : List Token
  /-- The number of tokens so far. -/
  count : Nat
  /-- The column of the innermost block, or -1 outside all blocks. -/
  indent : Int
  /-- The columns of the blocks around it, innermost first. -/
  outer : List Int
  /-- Truth that a key may begin here. -/
  keyAllowed : Bool
  /-- What may turn out to be a key, in the innermost collection. -/
  candidate : Option KeyStart
  /-- The same for the collections around each flow collection, innermost first. -/
  outerCandidates : List (Option KeyStart)

namespace Scan

def start (cs : List Char) : Scan where
  cursor := ⟨cs, .start⟩
  tokens := []
  count := 0
  indent := -1
  outer := []
  keyAllowed := true
  candidate := none
  outerCandidates := []

def place (s : Scan) : Place := s.cursor.place

def column (s : Scan) : Int := s.place.column

def inFlow (s : Scan) : Bool := !s.outerCandidates.isEmpty

def emit (token : Token) (s : Scan) : Scan :=
  { s with tokens := token :: s.tokens, count := s.count + 1 }

def advance (count : Nat) (s : Scan) : Scan :=
  { s with cursor := ⟨s.cursor.rest.drop count, s.place.advance count⟩ }

/-! ## Between tokens -/

/-- Skips blanks, comments and line ends. Outside flow collections, a new line
may begin with a key, and tabs are only skipped where no key may begin. -/
def skipFrom (inFlow keyAllowed comment : Bool) : List Char → Place → Cursor × Bool
  | [], p => (⟨[], p⟩, keyAllowed)
  | c :: rest, p =>
    if isBreak c then skipFrom inFlow (keyAllowed || !inFlow) false rest (p.behind c)
    else if comment || c = ' ' || (c = '\t' && (inFlow || !keyAllowed))
        || (c = '\ufeff' && p.column = 0) then
      skipFrom inFlow keyAllowed comment rest (p.behind c)
    else if c = '#' then skipFrom inFlow keyAllowed true rest (p.behind c)
    else (⟨c :: rest, p⟩, keyAllowed)

def skip (s : Scan) : Scan :=
  let (cursor, keyAllowed) := skipFrom s.inFlow s.keyAllowed false s.cursor.rest s.place
  { s with cursor, keyAllowed }

/-- Gives up the innermost key if it is too far away. Those around flow
collections are looked at when their collections end. -/
def expireKey (s : Scan) : Option Scan :=
  (KeyStart.expire s.place s.candidate).map fun candidate => { s with candidate }

/-! ## Blocks -/

/-- The blocks that are left at a column, and the number of those that end. -/
def blocksAt (column : Int) : Int → List Int → Nat × Int × List Int
  | indent, [] => (0, indent, [])
  | indent, next :: outer =>
    if column < indent then
      let (ended, left) := blocksAt column next outer
      (ended + 1, left)
    else (0, indent, next :: outer)

/-- Ends the blocks that are indented more than a column. -/
def closeBlocks (column : Int) (s : Scan) : Scan :=
  if s.inFlow then s
  else
    let (ended, indent, outer) := blocksAt column s.indent s.outer
    { s with
      tokens := List.replicate ended .blockEnd ++ s.tokens
      count := s.count + ended
      indent, outer }

/-- Puts tokens behind the first ones. -/
def insertAt (position : Nat) (inserted : List Token) (s : Scan) : Scan :=
  let later := s.count - position
  { s with
    tokens := s.tokens.take later ++ inserted.reverse ++ s.tokens.drop later
    count := s.count + inserted.length }

/-- Begins a block at a column, unless the innermost block begins there. -/
def openBlock (column : Int) (position : Nat) (opening : Token) (s : Scan) : Scan :=
  if s.inFlow || column ≤ s.indent then s
  else { s.insertAt position [opening] with indent := column, outer := s.indent :: s.outer }

/-! ## Keys -/

/-- Gives up the innermost key, which must not be required. -/
def dropKey (s : Scan) : Option Scan :=
  if s.candidate.any (·.required) then none else some { s with candidate := none }

/-- Notes that a key may begin here. -/
def noteKey (s : Scan) : Option Scan :=
  if s.keyAllowed then do
    let required := !s.inFlow && s.indent = s.column
    let s ← s.dropKey
    some { s with candidate := some ⟨s.count, s.place, required⟩ }
  else some s

/-! ## Kinds of tokens -/

def marker (token : Token) (s : Scan) : Option Scan := do
  let s ← (s.closeBlocks (-1)).dropKey
  some { (s.advance 3).emit token with keyAllowed := false }

def openFlow (token : Token) (s : Scan) : Option Scan := do
  let s ← s.noteKey
  some
    { (s.advance 1).emit token with
      keyAllowed := true
      candidate := none
      outerCandidates := s.candidate :: s.outerCandidates }

def closeFlow (token : Token) (s : Scan) : Option Scan := do
  let s ← s.dropKey
  some
    { (s.advance 1).emit token with
      keyAllowed := false
      candidate := s.outerCandidates.head?.join
      outerCandidates := s.outerCandidates.tail }

def comma (s : Scan) : Option Scan := do
  let s ← s.dropKey
  some { (s.advance 1).emit .comma with keyAllowed := true }

def item (s : Scan) : Option Scan :=
  if !s.inFlow && !s.keyAllowed then none
  else do
    let s ← (s.openBlock s.column s.count .sequenceStart).dropKey
    some { (s.advance 1).emit .item with keyAllowed := true }

def explicitKey (s : Scan) : Option Scan :=
  if !s.inFlow && !s.keyAllowed then none
  else do
    let s ← (s.openBlock s.column s.count .mappingStart).dropKey
    some { (s.advance 1).emit .key with keyAllowed := !s.inFlow }

/-- Reads the colon of a value. What was noted as a key becomes one. -/
def value (s : Scan) : Option Scan :=
  match s.candidate with
  | some k =>
    let s := (s.insertAt k.position [.key]).openBlock k.place.column k.position .mappingStart
    some { (s.advance 1).emit .value with candidate := none, keyAllowed := false }
  | none =>
    if !s.inFlow && !s.keyAllowed then none
    else
      let s := s.openBlock s.column s.count .mappingStart
      some { (s.advance 1).emit .value with keyAllowed := !s.inFlow }

/-- Reads a scalar, which may be a key. -/
def scalar (plain : Bool) (read : Cursor → Option Scanned) (s : Scan) : Option Scan := do
  let s ← s.noteKey
  let found ← read s.cursor
  some { s.emit (.scalar found.text plain) with cursor := found.next, keyAllowed := found.endsLine }

/-- Reads a scalar behind its quote. -/
def quoted (scan : List Char → Place → Option Scanned) : Scan → Option Scan :=
  scalar false fun c => scan (c.rest.drop 1) (c.place.advance 1)

/-- Truth that no plain scalar begins with a character, wherever it stands. -/
def isIndicator (c : Char) : Bool :=
  ",[]\x7b\x7d#&*!|>\x27\x22%@\x60".toList.contains c

/-- Truth that a plain scalar may begin with a character. -/
def beginsPlain (inFlow : Bool) (c : Char) (rest : List Char) : Bool :=
  if c = '-' then !endsWord rest
  else if c = '?' || c = ':' then !inFlow && !endsWord rest
  else !(isBlank c || isIndicator c)

/-! ## The whole text -/

/-- Reads the token that begins with a character. -/
def token (c : Char) (rest : List Char) (s : Scan) : Option Scan :=
  if s.cursor.atMarker '-' then s.marker .documentStart
  else if s.cursor.atMarker '.' then s.marker .documentEnd
  else
    match c with
    | '[' => s.openFlow .flowSequenceStart
    | '\x7b' => s.openFlow .flowMappingStart
    | ']' => s.closeFlow .flowSequenceEnd
    | '\x7d' => s.closeFlow .flowMappingEnd
    | ',' => s.comma
    | '\x27' => s.quoted (scanSingleFrom [] .nothing)
    | '"' => s.quoted (scanDoubleFrom [] .nothing)
    | _ =>
      if c = '-' && endsWord rest then s.item
      else if c = '?' && (s.inFlow || endsWord rest) then s.explicitKey
      else if c = ':' && (s.inFlow || endsWord rest) then s.value
      else if beginsPlain s.inFlow c rest then
        s.scalar true (scanPlain s.inFlow (s.indent + 1))
      else none

def finish (s : Scan) : Option (List Token) :=
  ((s.closeBlocks (-1)).dropKey).map (·.tokens.reverse)

/-- Reads tokens up to the end of the text. Each token has at least one
character. -/
def run : Nat → Scan → Option (List Token)
  | 0, _ => none
  | fuel + 1, s => do
    let s ← s.skip.expireKey
    let s := s.closeBlocks s.column
    match s.cursor.rest with
    | [] => s.finish
    | c :: rest =>
      let s ← s.token c rest
      run fuel s

end Scan

/-- The tokens of a text with unified line ends. -/
def tokens? (cs : List Char) : Option (List Token) := Scan.run (cs.length + 1) (.start cs)

end DecaySearch.Text.Yaml
