-- Paths. A path is followed part by part, and every part but the last must lead to a
-- directory.

namespace DecaySearch.CommandLine

/-! ## Anchors -/

/-- Where a path begins. -/
inductive Anchor
  /-- The directory of the run, or the one so many levels above it. -/
  | run (above : Nat)
  /-- The root of all directories. -/
  | root
  deriving DecidableEq

/-- The directory around an anchor. There is nothing around the root. -/
def Anchor.around : Anchor → Anchor
  | .run above => .run (above + 1)
  | .root => .root

/-! ## Paths -/

/-- The parts of a path between its slashes, and where it begins. -/
structure Path where
  anchor : Anchor
  parts : List String
  deriving DecidableEq

namespace Path

/-- Reads a path, which begins at the root if it begins with a slash. -/
def ofText (text : String) : Path :=
  ⟨if text.startsWith "/" then .root else .run 0, text.splitOn "/"⟩

/-- The path of a thing in the directory that a path leads to. No slash is put
behind one that is there already. -/
def inside (p : Path) (name : String) : Path :=
  let parts := if p.parts.getLast? = some "" then p.parts.dropLast else p.parts
  { p with parts := parts ++ [name] }

/-- The number of bytes of a path, with its slashes. -/
def size (p : Path) : Nat :=
  (p.parts.map String.utf8ByteSize).foldr (· + ·) 0 + (p.parts.length - 1)

def longest : Nat := 4095

def longestName : Nat := 255

def isTooLong (p : Path) : Bool := longest < p.size

/-- The parts that lead somewhere else. -/
def essential (p : Path) : List String := p.parts.filter fun part => part ≠ "" && part ≠ "."

/-- Splits off the last part that is not empty. -/
def split (p : Path) : Option (Path × String) :=
  match p.parts.reverse.dropWhile (· = "") with
  | [] => none
  | last :: before => some ({ p with parts := before.reverse }, last)

end Path

end DecaySearch.CommandLine
