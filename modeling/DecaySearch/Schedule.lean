-- The order of work in a run. Events are processed in batches, on one thread or
-- on many, and the rows of each batch are written in batch order.
import DecaySearch.Run

namespace DecaySearch

/-- The events from `start` up to `stop`, which is not part of the range. -/
structure EventRange where
  start : Nat
  stop : Nat
  deriving DecidableEq

namespace EventRange

def indices (r : EventRange) : List Nat := (List.range (r.stop - r.start)).map (r.start + ·)

end EventRange

namespace Schedule

/-! ## Batches -/

/-- The number of events in a full batch. -/
def batchSize : Nat := 1000

/-- The number of batches. The last one may not be full. -/
def batchCount (numEvents : Nat) : Nat := (numEvents + batchSize - 1) / batchSize

/-- The batch of an index. Its end is computed with 64 bits before it is cut off
at the last event. -/
def batchAt (numEvents index : Nat) : Except Fault EventRange :=
  let start := index * batchSize
  if start + batchSize < Nat.pow 2 64 then .ok ⟨start, min (start + batchSize) numEvents⟩
  else .error .counterOverflow

/-- Splits events into consecutive batches. -/
def batches (numEvents : Nat) : Except Fault (List EventRange) :=
  (List.range (batchCount numEvents)).mapM (batchAt numEvents)

/-- Checks that there is a batch for every event. Only the end of the last batch
may not fit. -/
def checkBatches (numEvents : Nat) : Except Fault Unit :=
  if batchCount numEvents * batchSize < Nat.pow 2 64 then .ok () else .error .counterOverflow

/-! ## Steps -/

variable {m : Type → Type} [Monad m] [MonadExceptOf Fault m]

/-- Raises a fault in the monad of the run. -/
def raise {α : Type} : Except Fault α → m α
  | .ok a => pure a
  | .error fault => throwThe Fault fault

abbrev Kernel (m : Type → Type) := EventRange → m RunAccumulator

/-- Writes rows. The monad of the run says how writing may fail. -/
abbrev Sink (m : Type → Type) := EmittedRows → m Unit

/-- Writes the rows of a batch and merges the rest of its results. -/
def settle (write : Sink m) (total result : RunAccumulator) : m RunAccumulator := do
  let (rows, rest) := result.takeRows
  write rows
  raise (total.merge rest)

/-- Takes a step for each of some consecutive numbers, from the first one on.
There is no list of the numbers, because a run may end long before the last. -/
def stepThrough {σ : Type} (step : σ → Nat → m σ) : Nat → Nat → σ → m σ
  | 0, _, s => pure s
  | count + 1, first, s => do
    let s ← step s first
    stepThrough step count (first + 1) s

/-! ## One thread -/

def processBatch (numEvents : Nat) (kernel : Kernel m) (write : Sink m) (total : RunAccumulator)
    (index : Nat) : m RunAccumulator := do
  let batch ← raise (batchAt numEvents index)
  let result ← kernel batch
  settle write total result

/-- Processes the batches one after the other. The rows of a batch are written
before the next batch is made. There must be an event. -/
def sequential (numEvents : Nat) (kernel : Kernel m) (write : Sink m) : m RunAccumulator :=
  if numEvents = 0 then throwThe Fault .noEvents
  else stepThrough (processBatch numEvents kernel write) (batchCount numEvents) 0 .empty

/-! ## Many threads -/

/-- The results of the batches of a wave, as far as they are there. -/
abbrev Slots := List (Option RunAccumulator)

/-- Stores the result of a batch, which must not be there yet. -/
def Slots.report (slots : Slots) (index : Nat) (result : RunAccumulator) : Except Fault Slots :=
  match slots[index]? with
  | none => .error (.outOfBounds slots.length index)
  | some (some _) => .error .resultReportedTwice
  | some none => .ok (slots.set index (some result))

def reported : Option RunAccumulator → Except Fault RunAccumulator
  | none => .error .resultMissing
  | some result => .ok result

/-- How the work of a wave is shared out. -/
structure Workers where
  threads : Nat
  threads_pos : 0 < threads
  /-- The order in which the batches of a wave are completed. -/
  completion : List EventRange → List Nat

namespace Workers

/-- The number of batches that each thread gets in a wave. -/
def batchesPerThread : Nat := 4

/-- The number of batches in a full wave. -/
def waveSize (w : Workers) : Nat := batchesPerThread * w.threads

/-- The number of waves. The last one may not be full. -/
def waveCount (w : Workers) (numEvents : Nat) : Nat :=
  (batchCount numEvents + w.waveSize - 1) / w.waveSize

/-- The batches of the wave of an index. -/
def waveAt (w : Workers) (numEvents index : Nat) : Except Fault (List EventRange) :=
  let first := index * w.waveSize
  (List.range' first (min w.waveSize (batchCount numEvents - first))).mapM (batchAt numEvents)

/-- Truth that each batch of a wave is completed exactly once. -/
def Fair (w : Workers) : Prop :=
  ∀ wave, (w.completion wave).Perm (List.range wave.length)

/-- Workers that complete the batches in their order. -/
def inOrder (threads : Nat) (threads_pos : 0 < threads) : Workers :=
  ⟨threads, threads_pos, fun wave => List.range wave.length⟩

end Workers

/-- Processes the batches of a wave in the order of their completion. -/
def processWave (workers : Workers) (kernel : Kernel m) (wave : List EventRange) : m Slots :=
  (workers.completion wave).foldlM
    (fun slots index =>
      match wave[index]? with
      | none => throwThe Fault (.outOfBounds wave.length index)
      | some batch => do
        let result ← kernel batch
        raise (slots.report index result))
    (List.replicate wave.length none)

/-- Writes the rows of a wave and merges its results, in batch order. -/
def settleWave (write : Sink m) (total : RunAccumulator) (slots : Slots) : m RunAccumulator :=
  slots.foldlM
    (fun total slot => do
      let result ← raise (reported slot)
      settle write total result)
    total

def runWave (workers : Workers) (numEvents : Nat) (kernel : Kernel m) (write : Sink m)
    (total : RunAccumulator) (index : Nat) : m RunAccumulator := do
  let wave ← raise (workers.waveAt numEvents index)
  let slots ← processWave workers kernel wave
  settleWave write total slots

/-- Processes the batches in waves. The rows of a wave are written when all of
its batches are done. There must be an event, and all batches are checked before
the first wave. -/
def threaded (workers : Workers) (numEvents : Nat) (kernel : Kernel m) (write : Sink m) :
    m RunAccumulator :=
  if numEvents = 0 then throwThe Fault .noEvents
  else do
    raise (checkBatches numEvents)
    stepThrough (runWave workers numEvents kernel write) (workers.waveCount numEvents) 0 .empty

end Schedule

end DecaySearch
