-- A system that is kept in memory. A run on it is a function from the files before
-- the run to the files and the printed lines after it.
import DecaySearch.CommandLine.Directory
import DecaySearch.CommandLine.Session

namespace DecaySearch.CommandLine

/-! ## Memory -/

/-- The files and directories in memory, and what was printed. -/
structure Memory where
  files : Forest
  printed : List String

namespace Memory

/-- A memory that starts with some texts, put among what is there already. -/
def ofTexts (texts : List (String × String)) (around : Forest := []) : Memory where
  files := texts.foldl (fun f (path, text) => f.place (.ofText path) (.text text)) around
  printed := []

/-- The lines of the file that a path leads to. -/
def lines? (w : Memory) (p : Path) : Option (List String) := (w.files.find? p).bind Entry.lines?

def read (w : Memory) (p : Path) : FileText :=
  match w.files.find? p with
  | none => .missing
  | some entry =>
    match entry.text? with
    | none => .unreadable
    | some text => .text text

/-- Changes the files, if that is possible. -/
def change (w : Memory) (f : Forest → Option Forest) : Option Memory :=
  (f w.files).map fun files => { w with files }

def makeDirectories (w : Memory) (p : Path) : Option Memory := w.change (·.makeDirectories p)

/-- Writes a file, unless a directory is in the way. -/
def put (w : Memory) (p : Path) (content : List String) : Option Memory :=
  w.change (·.putFile p content)

def append (w : Memory) (p : Path) (content : List String) : Option Memory :=
  w.put p ((w.lines? p).getD [] ++ content)

end Memory

/-! ## The system -/

/-- Replaces the memory, and says whether that was possible. -/
def replaceMemory (change : Memory → Option Memory) : StateM Memory Bool := do
  let w ← get
  match change w with
  | none => pure false
  | some w => do
    set w
    pure true

/-- Makes changes one after the other, up to the first one that is not possible. -/
def replaceAll : List (Memory → Option Memory) → StateM Memory Bool
  | [] => pure true
  | change :: rest => do
    if ← replaceMemory change then replaceAll rest else pure false

/-- A system in memory. Its clock stands still. -/
def memorySystem : System (StateM Memory) Path where
  read path := do
    let w ← get
    pure (w.read (.ofText path))
  print lines := modify fun w => { w with printed := w.printed ++ lines }
  createFiles directory files := do
    let path := Path.ofText directory
    let created ← replaceAll
      ((·.makeDirectories path) :: files.named.map fun (name, lines) w =>
        w.put (path.inside name) lines)
    pure (if created then some path else none)
  writeFiles path files :=
    replaceAll (files.named.map fun (name, lines) w => w.append (path.inside name) lines)
  closeFiles _ := pure true
  clock := pure ⟨0⟩
  timestamp := pure "unknown"
  writeSummary directory lines :=
    let path := Path.ofText directory
    replaceAll [(·.makeDirectories path), (·.put (path.inside summaryName) lines)]

end DecaySearch.CommandLine
