-- Where the events of a run come from.
import DecaySearch.Schedule
import DecaySearch.Toy.Generator

namespace DecaySearch

inductive EventSource
  /-- Events that were read from a file. -/
  | recorded (events : Array Event)
  /-- Events that are generated when they are asked for. -/
  | toy (generator : Toy.Generator) (numEvents : Nat)

namespace EventSource

def size : EventSource → Nat
  | .recorded events => events.size
  | .toy _ numEvents => numEvents

def isEmpty (s : EventSource) : Bool := s.size = 0

def event (s : EventSource) (index : Nat) : Except Fault Event :=
  match s with
  | .recorded events =>
    match events[index]? with
    | none => .error (.outOfBounds events.size index)
    | some event => .ok event
  | .toy generator _ => generator.generate (UInt64.ofNat index)

end EventSource

namespace Search

/-- Searches one event of a source and adds its output to an accumulator. -/
def integrate (s : Search) (source : EventSource) (total : RunAccumulator) (index : Nat) :
    Except Fault RunAccumulator := do
  let event ← source.event index
  let report ← s.process event
  total.integrate index report.output

/-- Searches a range of events. -/
def processRange (s : Search) (source : EventSource) (range : EventRange) :
    Except Fault RunAccumulator :=
  range.indices.foldlM (s.integrate source) .empty

end Search

end DecaySearch
