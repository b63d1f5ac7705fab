-- Directories in memory, and walks through them. A walk remembers the directories
-- that it came through. So it can go back, and change what it came to.
import DecaySearch.CommandLine.Path

namespace DecaySearch.CommandLine

/-! ## Files and directories -/

/-- What stands under a name in a directory. -/
inductive Entry
  /-- A file that holds a text. -/
  | text (content : String)
  /-- A file that was written line by line. -/
  | lines (content : List String)
  | directory (entries : List (String × Entry))

/-- Names, and what stands under them. -/
abbrev Directory := List (String × Entry)

/-- Puts something under a name, in the place of what was there. -/
def Directory.put (d : Directory) (name : String) (entry : Entry) : Directory :=
  (name, entry) :: d.filter fun (other, _) => other ≠ name

/-- The lines of a text. A line break at the end does not begin a line. -/
def splitLines (text : String) : List String :=
  let parts := text.splitOn "\n"
  if parts.getLast? = some "" then parts.dropLast else parts

/-- Lines as a text, each with its end. -/
def joinLines (lines : List String) : String := String.join (lines.map (· ++ "\n"))

namespace Entry

def isDirectory : Entry → Bool
  | .directory _ => true
  | _ => false

def lines? : Entry → Option (List String)
  | .text content => some (splitLines content)
  | .lines content => some content
  | .directory _ => none

def text? : Entry → Option String
  | .text content => some content
  | .lines content => some (joinLines content)
  | .directory _ => none

end Entry

/-- The directories at the anchors. One that is not listed is empty. -/
abbrev Forest := List (Anchor × Directory)

namespace Forest

def directory (f : Forest) (anchor : Anchor) : Directory := (f.lookup anchor).getD []

def putDirectory (f : Forest) (anchor : Anchor) (d : Directory) : Forest :=
  (anchor, d) :: f.filter fun (other, _) => other ≠ anchor

end Forest

/-! ## Walks -/

/-- Where a walk has come to. -/
structure Spot where
  anchor : Anchor
  /-- The names from the anchor on, last one first, each with the directory that
  it stands in. -/
  trail : List (String × Directory)
  /-- What is there, if anything is. -/
  found : Option Entry

namespace Spot

def start (f : Forest) (anchor : Anchor) : Spot :=
  ⟨anchor, [], some (.directory (f.directory anchor))⟩

def isDirectory (s : Spot) : Bool := s.found.any Entry.isDirectory

def entries (s : Spot) : Directory :=
  match s.found with
  | some (.directory entries) => entries
  | _ => []

def enter (name : String) (s : Spot) : Spot :=
  ⟨s.anchor, (name, s.entries) :: s.trail, s.entries.lookup name⟩

def back (f : Forest) (s : Spot) : Spot :=
  match s.trail with
  | [] => start f s.anchor.around
  | (_, around) :: trail => ⟨s.anchor, trail, some (.directory around)⟩

/-- Goes on by one part of a path. -/
def step (f : Forest) (s : Spot) (part : String) : Spot :=
  if part = "" ∨ part = "." then s
  else if part = ".." then s.back f
  else s.enter part

/-- What the anchor's directory becomes when something is put at the end of a
trail. Directories that were missing on the way are made. -/
def plant (entry : Entry) : List (String × Directory) → Directory
  | [] => match entry with
    | .directory entries => entries
    | _ => []
  | (name, around) :: trail => plant (.directory (around.put name entry)) trail

def put (f : Forest) (s : Spot) (entry : Entry) : Forest :=
  f.putDirectory s.anchor (plant entry s.trail)

end Spot

/-! ## Following paths -/

/-- Why a path leads nowhere. -/
inductive Obstacle
  /-- A directory on the way, or the thing itself, is missing. -/
  | missing
  /-- What is on the way is not a directory, or a name is too long. -/
  | blocked
  /-- The thing is there already. -/
  | taken
  deriving DecidableEq

namespace Forest

/-- Refuses to go on where there is no directory. -/
def pass (s : Spot) : Except Obstacle Unit :=
  if s.isDirectory then .ok ()
  else if s.found.isSome then .error .blocked
  else .error .missing

/-- Follows parts of a path. The last one may lead to nothing. -/
def followFrom (f : Forest) (s : Spot) : List String → Except Obstacle Spot
  | [] => .ok s
  | part :: rest => do
    pass s
    if Path.longestName < part.utf8ByteSize then .error .blocked
    else f.followFrom (s.step f part) rest

def follow (f : Forest) (p : Path) : Except Obstacle Spot :=
  if p.isTooLong then .error .blocked else f.followFrom (.start f p.anchor) p.parts

def find? (f : Forest) (p : Path) : Option Entry :=
  match f.follow p with
  | .error _ => none
  | .ok s => s.found

def leadsToDirectory (f : Forest) (p : Path) : Bool := (f.find? p).any Entry.isDirectory

/-! ## Changes -/

/-- Puts something at the end of a path, with all directories on the way. -/
def place (f : Forest) (p : Path) (entry : Entry) : Forest :=
  (p.parts.foldl (Spot.step f) (.start f p.anchor)).put f entry

/-- Writes a file, unless a directory is in the way. -/
def putFile (f : Forest) (p : Path) (content : List String) : Option Forest :=
  match f.follow p with
  | .error _ => none
  | .ok s => if s.isDirectory then none else some (s.put f (.lines content))

/-- Makes a directory in another one. -/
def makeDirectory (f : Forest) (p : Path) : Except Obstacle Forest :=
  if p.isTooLong then .error .blocked
  else
    match p.split with
    | none => .error .taken
    | some (before, last) => do
      let s ← f.follow before
      pass s
      if Path.longestName < last.utf8ByteSize then .error .blocked
      else if last = "." ∨ last = ".." then .error .taken
      else
        let s := s.enter last
        if s.found.isSome then .error .taken else .ok (s.put f (.directory []))

/-- Makes a directory, unless it is there. -/
def ensureDirectory (f : Forest) (p : Path) : Option Forest :=
  match f.makeDirectory p with
  | .ok f => some f
  | .error _ => if f.leadsToDirectory p then some f else none

/-- Makes a directory, and those around it if they are missing. These are given by
the parts of their paths, last part first. -/
def makeDirectoriesFrom (f : Forest) (p : Path) : List String → Option Forest
  | [] => some f
  | _ :: above =>
    match f.makeDirectory p with
    | .ok f => some f
    | .error .missing => do
      let f ← f.makeDirectoriesFrom { p with parts := above.reverse } above
      f.ensureDirectory p
    | .error _ => if f.leadsToDirectory p then some f else none

def makeDirectories (f : Forest) (p : Path) : Option Forest :=
  f.makeDirectoriesFrom p p.essential.reverse

end Forest

end DecaySearch.CommandLine
