-- The program: a run on the file system, the clock and the standard output.
import DecaySearch.CommandLine.Directory
import DecaySearch.CommandLine.Session
import Std.Time

namespace DecaySearch.CommandLine

/-- The candidate files while they are written. -/
structure OpenFiles where
  twoProng : IO.FS.Handle
  threeProng : IO.FS.Handle
  cascades : IO.FS.Handle

def succeeds (action : IO Unit) : IO Bool := do
  try
    action
    pure true
  catch _ => pure false

def pathIn (directory name : String) : String :=
  if directory.endsWith "/" then directory ++ name else directory ++ "/" ++ name

def putLines (handle : IO.FS.Handle) (lines : List String) : IO Unit :=
  handle.putStr (joinLines lines)

def openForWriting (path : String) (lines : List String) : IO IO.FS.Handle := do
  let handle ← IO.FS.Handle.mk path .write
  putLines handle lines
  pure handle

/-- Reads what can be opened. -/
def readContent (path : String) : IO FileText := do
  try
    let bytes ← IO.FS.readBinFile path
    match String.fromUTF8? bytes with
    | none => pure .unreadable
    | some content => pure (.text content)
  catch _ => pure .unreadable

def readFile (path : String) : IO FileText := do
  let opened ← succeeds do
    let _ ← IO.FS.Handle.mk path .read
    pure ()
  if opened then readContent path else pure .missing

def createCandidateFiles (directory : String) (files : CandidateFiles) :
    IO (Option OpenFiles) := do
  try
    IO.FS.createDirAll directory
    let twoProng ← openForWriting (pathIn directory CandidateFiles.twoProngName) files.twoProng
    let threeProng ←
      openForWriting (pathIn directory CandidateFiles.threeProngName) files.threeProng
    let cascades ← openForWriting (pathIn directory CandidateFiles.cascadeName) files.cascades
    pure (some ⟨twoProng, threeProng, cascades⟩)
  catch _ => pure none

/-- The system that the program runs on. -/
def system : System IO OpenFiles where
  read := readFile
  print lines := do
    let out ← IO.getStdout
    out.putStr (joinLines lines)
    out.flush
  createFiles := createCandidateFiles
  writeFiles handles files := succeeds do
    putLines handles.twoProng files.twoProng
    putLines handles.threeProng files.threeProng
    putLines handles.cascades files.cascades
  closeFiles handles := succeeds do
    handles.twoProng.flush
    handles.threeProng.flush
    handles.cascades.flush
  clock := do
    let nanoseconds ← IO.monoNanosNow
    pure ⟨nanoseconds⟩
  timestamp := do
    let now ← Std.Time.Timestamp.now
    pure (Std.Time.DateTime.ofTimestamp now .UTC).toISO8601String
  writeSummary directory lines := succeeds do
    IO.FS.createDirAll directory
    let handle ← openForWriting (pathIn directory summaryName) lines
    handle.flush

/-- Prints how a run ended, if it did not end well. -/
def explain : Outcome → IO Unit
  | .completed => pure ()
  | .failed cause => IO.eprintln ("Error: " ++ "\nCaused by: ".intercalate cause.chain)
  | .faulted cause => IO.eprintln cause.message

end DecaySearch.CommandLine

open DecaySearch.CommandLine in
def main (arguments : List String) : IO UInt32 := do
  match Request.ofArguments arguments with
  | .error e =>
    IO.eprintln s!"error: {e.message}"
    pure usageExitCode
  | .ok .help =>
    IO.print (joinLines help)
    pure 0
  | .ok .version =>
    IO.println "0.1.0"
    pure 0
  | .ok (.run arguments) => do
    let outcome ← run system arguments
    explain outcome
    pure outcome.exitCode
