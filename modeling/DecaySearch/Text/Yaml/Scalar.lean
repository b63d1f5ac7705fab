-- Scalars of YAML texts: plain, in single quotes and in double quotes. A scalar
-- may go on over several lines, whose ends are folded.
import DecaySearch.Text.Yaml.Place

namespace DecaySearch.Text.Yaml

/-! ## Gaps -/

/-- What stands between two characters of a scalar, last character first. -/
inductive Gap
  /-- Blanks within a line. -/
  | blanks (blanks : List Char)
  /-- Line ends, without the blanks around them. There is no first one if it was
  escaped. -/
  | breaks (first : Option Char) (others : List Char)
  deriving DecidableEq

namespace Gap

def nothing : Gap := .blanks []

def isNothing (g : Gap) : Bool := g = nothing

/-- Truth that the next character stands on another line. -/
def hasBreak : Gap → Bool
  | .blanks _ => false
  | .breaks _ _ => true

/-- Adds a blank. Blanks at the beginning of a line do not count. -/
def addBlank (c : Char) : Gap → Gap
  | .blanks cs => .blanks (c :: cs)
  | .breaks first others => .breaks first others

/-- Adds a line end. Blanks at the end of a line do not count. -/
def addBreak (c : Char) : Gap → Gap
  | .blanks _ => .breaks (some c) []
  | .breaks first others => .breaks first (c :: others)

/-- What the gap stands for. A single line end is a space. The first of several
is dropped, unless it is a separator. -/
def text : Gap → List Char
  | .blanks cs => cs
  | .breaks none others => others
  | .breaks (some '\n') [] => [' ']
  | .breaks (some '\n') others => others
  | .breaks (some c) others => others ++ [c]

end Gap

/-! ## Plain scalars -/

structure Scanned where
  text : String
  next : Cursor
  /-- Truth that the place behind it is not on the line of its last character. -/
  endsLine : Bool

/-- Truth that a plain scalar ends before a character. In a block, it ends at a
line that is indented less than it must be. -/
def endsPlain (inFlow : Bool) (indent : Int) (gap : Gap) (c : Char) (rest : List Char)
    (p : Place) : Bool :=
  Cursor.atAnyMarker ⟨c :: rest, p⟩
    || (!gap.isNothing && (c = '#' || (!inFlow && p.column < indent)))
    || (c = ':' && endsWord rest)
    || (inFlow && isFlowMark c)

/-- Truth that a colon stands where it belongs to nothing. -/
def straysColon (inFlow : Bool) (c : Char) (rest : List Char) : Bool :=
  inFlow && c = ':' && rest.head?.any fun d => isFlowMark d || d = '?'

/-- Reads a plain scalar. `done` are its characters so far, last one first.
Lines must not be indented with tabs. -/
def scanPlainFrom (inFlow : Bool) (indent : Int) (done : List Char) (gap : Gap) :
    List Char → Place → Option Scanned
  | [], p => some ⟨String.ofList done.reverse, ⟨[], p⟩, gap.hasBreak⟩
  | c :: rest, p =>
    if isBlank c then
      if c = '\t' && gap.hasBreak && p.column < indent then none
      else scanPlainFrom inFlow indent done (gap.addBlank c) rest (p.behind c)
    else if isBreak c then
      scanPlainFrom inFlow indent done (gap.addBreak c) rest (p.behind c)
    else if endsPlain inFlow indent gap c rest p then
      some ⟨String.ofList done.reverse, ⟨c :: rest, p⟩, gap.hasBreak⟩
    else if straysColon inFlow c rest then none
    else
      scanPlainFrom inFlow indent (c :: (gap.text ++ done)) .nothing rest (p.behind c)

/-- Reads a plain scalar, whose further lines must be indented by some columns. -/
def scanPlain (inFlow : Bool) (indent : Int) (c : Cursor) : Option Scanned :=
  scanPlainFrom inFlow indent [] .nothing c.rest c.place

/-! ## Quoted scalars -/

/-- Reads a scalar behind its single quote. A quote inside is written twice. -/
def scanSingleFrom (done : List Char) (gap : Gap) : List Char → Place → Option Scanned
  | [], _ => none
  | '\x27' :: '\x27' :: rest, p =>
    scanSingleFrom ('\x27' :: (gap.text ++ done)) .nothing rest (p.advance 2)
  | '\x27' :: rest, p =>
    some ⟨String.ofList (gap.text ++ done).reverse, ⟨rest, p.advance 1⟩, false⟩
  | c :: rest, p =>
    if isBlank c then scanSingleFrom done (gap.addBlank c) rest (p.behind c)
    else if isBreak c then scanSingleFrom done (gap.addBreak c) rest (p.behind c)
    else if Cursor.atAnyMarker ⟨c :: rest, p⟩ then none
    else scanSingleFrom (c :: (gap.text ++ done)) .nothing rest (p.behind c)

def hexValue? (c : Char) : Option Nat :=
  if c.isDigit then some (c.toNat - '0'.toNat)
  else if 'a' ≤ c && c ≤ 'f' then some (c.toNat - 'a'.toNat + 10)
  else if 'A' ≤ c && c ≤ 'F' then some (c.toNat - 'A'.toNat + 10)
  else none

/-- The character with a hexadecimal code of some digits. -/
def escapedCode (count : Nat) (cs : List Char) : Option Char := do
  let digits ← (cs.take count).mapM hexValue?
  if digits.length < count then none
  else
    let code := digits.foldl (fun n d => 16 * n + d) 0
    if code.isValidChar then some (Char.ofNat code) else none

/-- The character that an escape stands for, and the number of characters
behind the backslash that it takes. -/
def escaped? : List Char → Option (Char × Nat)
  | '0' :: _ => some ('\x00', 1)
  | 'a' :: _ => some ('\x07', 1)
  | 'b' :: _ => some ('\x08', 1)
  | 't' :: _ => some ('\t', 1)
  | '\t' :: _ => some ('\t', 1)
  | 'n' :: _ => some ('\n', 1)
  | 'v' :: _ => some ('\x0b', 1)
  | 'f' :: _ => some ('\x0c', 1)
  | 'r' :: _ => some ('\r', 1)
  | 'e' :: _ => some ('\x1b', 1)
  | ' ' :: _ => some (' ', 1)
  | '"' :: _ => some ('"', 1)
  | '/' :: _ => some ('/', 1)
  | '\\' :: _ => some ('\\', 1)
  | 'N' :: _ => some ('\u0085', 1)
  | '_' :: _ => some ('\u00a0', 1)
  | 'L' :: _ => some ('\u2028', 1)
  | 'P' :: _ => some ('\u2029', 1)
  | 'x' :: rest => (escapedCode 2 rest).map (·, 3)
  | 'u' :: rest => (escapedCode 4 rest).map (·, 5)
  | 'U' :: rest => (escapedCode 8 rest).map (·, 9)
  | _ => none

/-- Reads a scalar behind its double quote. An escaped line end adds nothing, and
neither do the blanks behind it. -/
def scanDoubleFrom (done : List Char) (gap : Gap) : List Char → Place → Option Scanned
  | [], _ => none
  | '"' :: rest, p =>
    some ⟨String.ofList (gap.text ++ done).reverse, ⟨rest, p.advance 1⟩, false⟩
  | '\\' :: c :: rest, p =>
    let done := gap.text ++ done
    if isBreak c then scanDoubleFrom done (.breaks none []) rest ((p.advance 1).behind c)
    else
      match escaped? (c :: rest) with
      | none => none
      | some (e, count) =>
        scanDoubleFrom (e :: done) .nothing (rest.drop (count - 1)) (p.advance (count + 1))
  | c :: rest, p =>
    if isBlank c then scanDoubleFrom done (gap.addBlank c) rest (p.behind c)
    else if isBreak c then scanDoubleFrom done (gap.addBreak c) rest (p.behind c)
    else if c = '\\' || Cursor.atAnyMarker ⟨c :: rest, p⟩ then none
    else scanDoubleFrom (c :: (gap.text ++ done)) .nothing rest (p.behind c)
termination_by cs => cs.length
decreasing_by all_goals simp only [List.length_cons, List.length_drop]; omega

end DecaySearch.Text.Yaml
