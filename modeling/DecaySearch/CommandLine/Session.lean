-- A run from the command line: reading the configuration and the events, the
-- search, and the output. What a run needs from the system around it is given to
-- it, so that a run is a function like any other.
import DecaySearch.CommandLine.Arguments
import DecaySearch.CandidateFiles
import DecaySearch.Configuration.Echo
import DecaySearch.EventFile
import DecaySearch.EventSource
import DecaySearch.Report

namespace DecaySearch.CommandLine

/-! ## The system -/

/-- What comes of reading a file. -/
inductive FileText
  /-- There is no file to open. -/
  | missing
  /-- What can be opened does not hold a text. -/
  | unreadable
  | text (content : String)
  deriving DecidableEq

/-- What a run needs from the system. Truth as an answer says that something
was written. -/
structure System (m : Type → Type) (Handle : Type) where
  read : String → m FileText
  print : List String → m Unit
  /-- Creates the candidate files in a directory, which is made if need be. -/
  createFiles : String → CandidateFiles → m (Option Handle)
  /-- Writes lines behind those that are there. -/
  writeFiles : Handle → CandidateFiles → m Bool
  closeFiles : Handle → m Bool
  /-- Time since some fixed moment. -/
  clock : m Duration
  /-- The time of day, for the summary. -/
  timestamp : m String
  /-- Writes the summary into a directory. -/
  writeSummary : String → List String → m Bool

def summaryName : String := "skims.summary"

/-! ## Errors -/

/-- Why a run is given up. -/
inductive RunError
  | configurationUnread (path : String)
  | configurationInvalid (path : String) (cause : ConfigurationError)
  | eventsUnopened (path : String)
  | eventsInvalid (path : String) (cause : EventFileError)
  | noEvents
  | candidatesNotCreated
  | candidatesNotWritten
  | summaryNotWritten
  deriving DecidableEq

namespace RunError

/-- The texts of an error, from the outermost context inwards. -/
def chain : RunError → List String
  | .configurationUnread path =>
    ["Failed to load the configuration", s!"Failed to read {path}"]
  | .configurationInvalid path cause =>
    ["Failed to load the configuration", s!"Invalid configuration in {path}"] ++ cause.chain
  | .eventsUnopened path => ["Failed to load the events", s!"Failed to open {path}"]
  | .eventsInvalid path cause => "Failed to load the events" :: cause.chain s!" in {path}"
  | .noEvents => ["Please process at least one event"]
  | .candidatesNotCreated => ["Failed to create the candidate files"]
  | .candidatesNotWritten => ["Failed to write the candidates"]
  | .summaryNotWritten => ["Failed to output the results"]

end RunError

inductive Outcome
  | completed
  | failed (cause : RunError)
  /-- Something happened that no run should come to. -/
  | faulted (cause : Fault)
  deriving DecidableEq

namespace Outcome

def exitCode : Outcome → UInt32
  | .completed => 0
  | .failed _ => 1
  | .faulted _ => 101

end Outcome

/-- The exit code of a run whose arguments are refused. -/
def usageExitCode : UInt32 := 2

/-! ## Steps -/

/-- A step of a run, which may end the run. -/
abbrev Session (m : Type → Type) := ExceptT Fault (ExceptT RunError m)

section

variable {m : Type → Type} [Monad m] {Handle : Type}

def ask {α : Type} (question : m α) : Session m α := ExceptT.lift (ExceptT.lift question)

def giveUp {α : Type} (cause : RunError) : Session m α := ExceptT.lift (throw cause)

/-- Gives the run up unless something was written. -/
def demand (cause : RunError) (question : m Bool) : Session m Unit := do
  if ← ask question then pure () else giveUp cause

def loadConfiguration (system : System m Handle) (path : String) : Session m Configuration := do
  match ← ask (system.read path) with
  | .missing | .unreadable => giveUp (.configurationUnread path)
  | .text content =>
    match Configuration.ofText content with
    | .error cause => giveUp (.configurationInvalid path cause)
    | .ok configuration => pure configuration

def loadEvents (system : System m Handle) (path : String) : Session m (List Event) := do
  match ← ask (system.read path) with
  | .missing => giveUp (.eventsUnopened path)
  | .unreadable => giveUp (.eventsInvalid path .malformed)
  | .text content =>
    match EventFile.ofText content with
    | .error cause => giveUp (.eventsInvalid path cause)
    | .ok events => pure events

/-- The events of an event file, or toy events. -/
def openSource (system : System m Handle) (toy : ToySettings) :
    Option String → Session m EventSource
  | some path => do
    let events ← loadEvents system path
    pure (.recorded events.toArray)
  | none => do
    let generator ← Schedule.raise (Toy.Generator.make toy)
    pure (.toy generator toy.numEvents)

def createFiles (system : System m Handle) (directory : String) (files : CandidateFiles) :
    Session m Handle := do
  match ← ask (system.createFiles directory files) with
  | none => giveUp .candidatesNotCreated
  | some handle => pure handle

/-- Searches all events and writes the rows of each batch. -/
def searchAll (system : System m Handle) (handle : Handle) (search : Search)
    (source : EventSource) : Session m RunAccumulator :=
  Schedule.sequential source.size
    (fun batch => Schedule.raise (search.processRange source batch))
    (fun rows =>
      demand .candidatesNotWritten (system.writeFiles handle (CandidateFiles.ofRows rows)))

/-- Prints the results and writes the summary. -/
def conclude (system : System m Handle) (directory : String) (hypotheses : HypothesisSet)
    (results : RunResults) : Session m Unit := do
  ask (system.print (results.display hypotheses))
  let time ← ask system.timestamp
  demand .summaryNotWritten
    (system.writeSummary directory (results.summary time hypotheses))

def steps (system : System m Handle) (a : Arguments) : Session m Unit := do
  let loaded ← loadConfiguration system a.config
  let configuration := (loaded.withDebug a.debug).withToy a.numEvents a.seed
  ask (system.print configuration.echo)
  let source ← openSource system configuration.toy a.events
  if source.isEmpty then giveUp .noEvents
  let search ← Schedule.raise configuration.makeSearch
  let files := CandidateFiles.create configuration.hypotheses configuration.search.debug
  let handle ← createFiles system a.outputDir files
  let start ← ask system.clock
  let total ← searchAll system handle search source
  demand .candidatesNotWritten (system.closeFiles handle)
  let stop ← ask system.clock
  let results ← Schedule.raise (total.finalize ⟨stop.nanoseconds - start.nanoseconds⟩)
  conclude system a.outputDir configuration.hypotheses results

def run (system : System m Handle) (a : Arguments) : m Outcome := do
  match ← (steps system a).run.run with
  | .error cause => pure (.failed cause)
  | .ok (.error cause) => pure (.faulted cause)
  | .ok (.ok ()) => pure .completed

end

end DecaySearch.CommandLine
