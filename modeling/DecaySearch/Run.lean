-- The results of a run, accumulated over batches of events. Accumulators of
-- consecutive batches are merged in order. Rows are only kept until they are
-- taken out for writing.
import DecaySearch.Search
import DecaySearch.Duration

namespace DecaySearch

/-! ## Rows -/

/-- Rows of candidates and cascades, each with the index of its event. -/
structure EmittedRows where
  twoProng : List (Nat × CandidateRow)
  threeProng : List (Nat × CandidateRow)
  cascades : List (Nat × Cascade.Row)
  deriving DecidableEq

namespace EmittedRows

def empty : EmittedRows := ⟨[], [], []⟩

def isEmpty (r : EmittedRows) : Bool :=
  r.twoProng.isEmpty && r.threeProng.isEmpty && r.cascades.isEmpty

def append (a b : EmittedRows) : EmittedRows :=
  ⟨a.twoProng ++ b.twoProng, a.threeProng ++ b.threeProng, a.cascades ++ b.cascades⟩

def ofEvent (index : Nat) (output : EventOutput) : EmittedRows :=
  ⟨output.twoProng.map (index, ·), output.threeProng.map (index, ·),
   output.cascades.map (index, ·)⟩

end EmittedRows

/-! ## Accumulation -/

/-- Everything that a run counts. -/
structure RunTotals where
  processedEvents : Nat
  rejectedEvents : Nat
  counts : EventCounts
  tracks : TrackTally
  twoProng : HypothesisTally
  threeProng : HypothesisTally
  deriving DecidableEq

namespace RunTotals

def zero : RunTotals := ⟨0, 0, .zero, .zero, .zero, .zero⟩

def add (a b : RunTotals) : RunTotals where
  processedEvents := a.processedEvents + b.processedEvents
  rejectedEvents := a.rejectedEvents + b.rejectedEvents
  counts := a.counts.add b.counts
  tracks := a.tracks.add b.tracks
  twoProng := a.twoProng.add b.twoProng
  threeProng := a.threeProng.add b.threeProng

/-- The totals of one event. An event that was rejected before the search
counts for nothing else. -/
def ofEvent (output : EventOutput) : RunTotals :=
  if output.accepted then
    ⟨1, 0, output.counts, output.tracks, output.twoProngTally, output.threeProngTally⟩
  else { zero with processedEvents := 1, rejectedEvents := 1 }

end RunTotals

/-- The totals of some events, and the rows that were not taken out yet. -/
structure RunAccumulator where
  totals : RunTotals
  rows : EmittedRows
  deriving DecidableEq

namespace RunAccumulator

def empty : RunAccumulator := ⟨.zero, .empty⟩

def ofEvent (index : Nat) (output : EventOutput) : RunAccumulator :=
  ⟨.ofEvent output, if output.accepted then .ofEvent index output else .empty⟩

def append (a b : RunAccumulator) : RunAccumulator := ⟨a.totals.add b.totals, a.rows.append b.rows⟩

/-- Refuses counters that do not fit into 64 bits. -/
def checked (a : RunAccumulator) : Except Fault RunAccumulator :=
  if a.totals.counts.fits then .ok a else .error .counterOverflow

def merge (a b : RunAccumulator) : Except Fault RunAccumulator := (a.append b).checked

/-- What is left of an accumulator when a counter does not fit any more. The
events are counted, and so is everything before that counter. -/
def mergePartly (a b : RunAccumulator) : RunAccumulator :=
  { a with totals :=
      { a.totals with
        processedEvents := a.totals.processedEvents + b.totals.processedEvents
        rejectedEvents := a.totals.rejectedEvents + b.totals.rejectedEvents
        counts := a.totals.counts.add (a.totals.counts.fitting b.totals.counts) } }

def integrate (a : RunAccumulator) (index : Nat) (output : EventOutput) :
    Except Fault RunAccumulator :=
  a.merge (.ofEvent index output)

/-- Takes the rows out for writing. -/
def takeRows (a : RunAccumulator) : EmittedRows × RunAccumulator :=
  (a.rows, { a with rows := .empty })

end RunAccumulator

/-! ## Results -/

structure RunResults where
  totals : RunTotals
  elapsed : Duration
  deriving DecidableEq

namespace RunResults

def tally (r : RunResults) : Arity → HypothesisTally
  | .twoProng => r.totals.twoProng
  | .threeProng => r.totals.threeProng

def secondsPerEvent (r : RunResults) : Float :=
  if r.totals.processedEvents = 0 then 0
  else r.elapsed.seconds / Float.ofNat r.totals.processedEvents

end RunResults

/-- Closes a run. All rows must have been taken out. -/
def RunAccumulator.finalize (a : RunAccumulator) (elapsed : Duration) :
    Except Fault RunResults :=
  if a.rows.isEmpty then .ok ⟨a.totals, elapsed⟩ else .error .unwrittenRows

end DecaySearch
