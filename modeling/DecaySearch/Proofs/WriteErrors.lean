-- A write error ends a run at once. Every run is watched here through a log of the batches
-- that were worked on and of the rows that were written, with what came of each, so the work
-- and the sink can be anything, and may share a state.
import Mathlib.Data.List.Perm.Subperm
import DecaySearch.Proofs.Waves

namespace DecaySearch.Schedule

variable {σ ε α β : Type}

/-! ## Watched runs -/

/-- What happened in a run so far. -/
structure Log (σ ε : Type) where
  /-- What the work and the sink have made of their own state. -/
  state : σ
  processed : List (EventRange × Except Fault RunAccumulator)
  written : List (EmittedRows × Except ε Unit)

namespace Log

def start (state : σ) : Log σ ε := ⟨state, [], []⟩

/-- The batches that were worked on, in that order. -/
def batches (log : Log σ ε) : List EventRange := log.processed.map (·.1)

def worked (log : Log σ ε) (state : σ) (batch : EventRange)
    (result : Except Fault RunAccumulator) : Log σ ε :=
  { log with state, processed := log.processed ++ [(batch, result)] }

def wrote (log : Log σ ε) (state : σ) (rows : EmittedRows) (answer : Except ε Unit) : Log σ ε :=
  { log with state, written := log.written ++ [(rows, answer)] }

theorem batches_worked (log : Log σ ε) (state : σ) (batch : EventRange)
    (result : Except Fault RunAccumulator) :
    (log.worked state batch result).batches = log.batches ++ [batch] := by
  unfold batches worked
  rw [List.map_append]
  rfl

end Log

/-- A run that keeps a log. Faults and write errors end it. -/
abbrev Logged (σ ε : Type) := ExceptT Fault (ExceptT ε (StateM (Log σ ε)))

/-- The work on batches, with a note of each. -/
def loggedKernel (work : EventRange → StateM σ (Except Fault RunAccumulator)) :
    Kernel (Logged σ ε) := fun batch =>
  ExceptT.mk <| ExceptT.mk fun log =>
    let (result, state) := work batch log.state
    (.ok result, log.worked state batch result)

/-- A sink, with a note of each call. -/
def loggedSink (write : EmittedRows → StateM σ (Except ε Unit)) : Sink (Logged σ ε) := fun rows =>
  ExceptT.mk <| ExceptT.mk fun log =>
    let (answer, state) := write rows log.state
    (answer.map .ok, log.wrote state rows answer)

/-! ## How a watched run ends -/

/-- A run stops early with one property of its end and its log, or goes on with another. -/
inductive Ends (x : Logged σ ε α) (log : Log σ ε) (stop : Except ε Fault → Log σ ε → Prop)
    (next : α → Log σ ε → Prop) : Prop
  | failed {e : ε} {later : Log σ ε} (hrun : x.run.run.run log = (.error e, later))
      (h : stop (.error e) later) : Ends x log stop next
  | faulted {fault : Fault} {later : Log σ ε}
      (hrun : x.run.run.run log = (.ok (.error fault), later)) (h : stop (.ok fault) later) :
    Ends x log stop next
  | returned {a : α} {later : Log σ ε} (hrun : x.run.run.run log = (.ok (.ok a), later))
      (h : next a later) : Ends x log stop next

variable {log : Log σ ε} {stop : Except ε Fault → Log σ ε → Prop}
  {next : α → Log σ ε → Prop}

theorem Ends.bind {x : Logged σ ε β} {f : β → Logged σ ε α}
    (h : Ends x log stop fun b log => Ends (f b) log stop next) : Ends (x >>= f) log stop next := by
  have hbind : ∀ {r}, x.run.run.run log = r → (x >>= f).run.run.run log =
      match r with
      | (.error e, later) => (.error e, later)
      | (.ok (.error fault), later) => (.ok (.error fault), later)
      | (.ok (.ok b), later) => (f b).run.run.run later := by
    rintro r rfl
    rw [ExceptT.run_bind, ExceptT.run_bind, StateT.run_bind]
    rcases x.run.run.run log with ⟨e | fault | b, later⟩ <;> rfl
  cases h with
  | failed hrun h => exact .failed (hbind hrun) h
  | faulted hrun h => exact .faulted (hbind hrun) h
  | returned hrun h =>
    cases h with
    | failed hrest h => exact .failed ((hbind hrun).trans hrest) h
    | faulted hrest h => exact .faulted ((hbind hrun).trans hrest) h
    | returned hrest h => exact .returned ((hbind hrun).trans hrest) h

theorem Ends.mono {x : Logged σ ε α} {stop' : Except ε Fault → Log σ ε → Prop}
    {next' : α → Log σ ε → Prop} (h : Ends x log stop next)
    (hstop : ∀ how log, stop how log → stop' how log)
    (hnext : ∀ a log, next a log → next' a log) : Ends x log stop' next' := by
  cases h with
  | failed hrun h => exact .failed hrun (hstop _ _ h)
  | faulted hrun h => exact .faulted hrun (hstop _ _ h)
  | returned hrun h => exact .returned hrun (hnext _ _ h)

/-- A step leads to a property from which the rest goes on. -/
theorem Ends.seq {x : Logged σ ε β} {f : β → Logged σ ε α} {mid : β → Log σ ε → Prop}
    (h : Ends x log stop mid) (hf : ∀ b log, mid b log → Ends (f b) log stop next) :
    Ends (x >>= f) log stop next :=
  (h.mono (fun _ _ h => h) hf).bind

theorem ends_raise {x : Except Fault α} (hok : ∀ a, x = .ok a → next a log)
    (herror : ∀ fault, x = .error fault → stop (.ok fault) log) :
    Ends (raise x) log stop next := by
  cases x with
  | error fault => exact .faulted rfl (herror fault rfl)
  | ok a => exact .returned rfl (hok a rfl)

theorem ends_loggedKernel {work : EventRange → StateM σ (Except Fault RunAccumulator)}
    {batch : EventRange} {next : RunAccumulator → Log σ ε → Prop}
    (hok : ∀ state result, next result (log.worked state batch (.ok result)))
    (herror : ∀ state fault, stop (.ok fault) (log.worked state batch (.error fault))) :
    Ends (loggedKernel work batch) log stop next := by
  rcases hwork : work batch log.state with ⟨fault | result, state⟩
  · refine .faulted ?_ (herror state fault)
    simp only [loggedKernel, ExceptT.run_mk, StateT.run, hwork]
  · refine .returned ?_ (hok state result)
    simp only [loggedKernel, ExceptT.run_mk, StateT.run, hwork]

theorem ends_loggedSink {write : EmittedRows → StateM σ (Except ε Unit)} {rows : EmittedRows}
    {next : Unit → Log σ ε → Prop}
    (hok : ∀ state, next () (log.wrote state rows (.ok ())))
    (herror : ∀ state e, stop (.error e) (log.wrote state rows (.error e))) :
    Ends (loggedSink write rows) log stop next := by
  rcases hwrite : write rows log.state with ⟨e | ⟨⟩, state⟩
  · refine .failed ?_ (herror state e)
    simp only [loggedSink, ExceptT.run_mk, StateT.run, hwrite]
    rfl
  · refine .returned ?_ (hok state)
    simp only [loggedSink, ExceptT.run_mk, StateT.run, hwrite]
    rfl

/-- What each step of some consecutive numbers keeps holds after all of them. -/
theorem ends_stepThrough {step : α → Nat → Logged σ ε α} {I : Nat → α → Log σ ε → Prop}
    {count first : Nat}
    (hstep : ∀ i, first ≤ i → i < first + count → ∀ a log, I i a log →
      Ends (step a i) log stop (I (i + 1))) {a : α} (h : I first a log) :
    Ends (stepThrough step count first a) log stop (I (first + count)) := by
  induction count generalizing first a log with
  | zero => exact .returned rfl h
  | succ count ih =>
    unfold stepThrough
    refine (hstep first (Nat.le_refl _) (by omega) a log h).seq fun b log hb => ?_
    rw [show first + (count + 1) = first + 1 + count by omega]
    exact ih (fun i hi hlast => hstep i (by omega) (by omega)) hb

/-- What each step over a list keeps holds after the whole list. -/
theorem ends_foldlM {γ : Type} {step : α → γ → Logged σ ε α} {I : List γ → α → Log σ ε → Prop}
    {xs : List γ} (hstep : ∀ done x rest, xs = done ++ x :: rest → ∀ a log, I done a log →
      Ends (step a x) log stop (I (done ++ [x]))) {a : α} (h : I [] a log) :
    Ends (xs.foldlM step a) log stop (I xs) := by
  suffices hrest : ∀ rest done, xs = done ++ rest → ∀ a log, I done a log →
      Ends (rest.foldlM step a) log stop (I xs) from hrest xs [] rfl a log h
  intro rest
  induction rest with
  | nil =>
    rintro done rfl a log h
    rw [List.append_nil]
    exact .returned rfl h
  | cons x rest ih =>
    intro done hxs a log h
    rw [List.foldlM_cons]
    exact (hstep done x rest hxs a log h).seq fun b later hb =>
      ih (done ++ [x]) (by simpa using hxs) b later hb

/-! ## Results that were sent -/

/-- What some results add up to, without their rows. -/
def merged (results : List RunAccumulator) : RunAccumulator :=
  results.foldl (fun total result => total.append result.takeRows.2) .empty

theorem merged_concat (results : List RunAccumulator) (result : RunAccumulator) :
    merged (results ++ [result]) = (merged results).append result.takeRows.2 := by
  unfold merged
  rw [List.foldl_append]
  rfl

/-- The results of the first batches were sent to the sink in the order of the batches. -/
structure Sent (numEvents : Nat) (log : Log σ ε) (sent : List RunAccumulator) : Prop where
  results : List.Forall₂ (fun batch result => (batch, .ok result) ∈ log.processed)
    ((batchesOf numEvents).take sent.length) sent
  rows : log.written.map (·.1) = sent.map (·.rows)

/-- A run that has sent some results, and has not ended yet. -/
structure Running (numEvents : Nat) (total : RunAccumulator) (log : Log σ ε)
    (sent : List RunAccumulator) : Prop extends Sent numEvents log sent where
  fine : ∀ call ∈ log.written, call.2 = .ok ()
  total : total = merged sent

/-- A run that has ended. The first call that fails is the last one, and its error is the end
of the run. -/
structure Ended (numEvents : Nat) (ending : Except ε (Except Fault RunAccumulator))
    (log : Log σ ε) (sent : List RunAccumulator) : Prop extends Sent numEvents log sent where
  stops : ∀ k rows e, log.written[k]? = some (rows, .error e) →
    log.written.length = k + 1 ∧ ending = .error e
  failed : ∀ e, ending = .error e → ∃ rows, log.written.getLast? = some (rows, .error e)
  faulted : ∀ fault, ending = .ok (.error fault) →
    (∃ batch, (batch, .error fault) ∈ log.processed) ∨
      fault = .counterOverflow ∧
        (checkBatches numEvents ≠ .ok () ∨ ¬ (merged sent).totals.counts.fits = true)
  completed : ∀ total, ending = .ok (.ok total) →
    sent.length = batchCount numEvents ∧ total = merged sent

variable {numEvents : Nat} {total result : RunAccumulator} {sent : List RunAccumulator}

theorem Sent.length_written (h : Sent numEvents log sent) : log.written.length = sent.length := by
  simpa using congrArg List.length h.rows

theorem Running.start (state : σ) :
    Running numEvents .empty (.start state : Log σ ε) [] :=
  ⟨⟨.nil, rfl⟩, fun _ h => (nomatch h), rfl⟩

/-- More work does not change what was sent. -/
theorem Running.worked (h : Running numEvents total log sent) {later : Log σ ε}
    (hprocessed : log.processed ⊆ later.processed) (hwritten : later.written = log.written) :
    Running numEvents total later sent :=
  ⟨⟨h.results.imp fun _ _ hmem => hprocessed hmem, hwritten ▸ h.rows⟩, hwritten ▸ h.fine, h.total⟩

theorem Running.no_error (h : Running numEvents total log sent) {k : Nat} {rows : EmittedRows}
    {e : ε} : log.written[k]? ≠ some (rows, .error e) := fun hk => by
  cases h.fine _ (List.mem_of_getElem? hk)

/-- A run ends in a fault only if the work does, or if something cannot be counted. -/
theorem Running.ended_of_fault (h : Running numEvents total log sent) {fault : Fault}
    (hcause : (∃ batch, (batch, .error fault) ∈ log.processed) ∨
      fault = .counterOverflow ∧
        (checkBatches numEvents ≠ .ok () ∨ ¬ (merged sent).totals.counts.fits = true)) :
    Ended numEvents (.ok (.error fault)) log sent where
  toSent := h.toSent
  stops _ _ _ hk := absurd hk h.no_error
  failed _ hending := nomatch hending
  faulted _ hending := by
    cases hending
    exact hcause
  completed _ hending := nomatch hending

theorem Running.ended_of_all (h : Running numEvents total log sent)
    (hall : sent.length = batchCount numEvents) : Ended numEvents (.ok (.ok total)) log sent where
  toSent := h.toSent
  stops _ _ _ hk := absurd hk h.no_error
  failed _ hending := nomatch hending
  faulted _ hending := nomatch hending
  completed _ hending := by
    cases hending
    exact ⟨hall, h.total⟩

section

variable (h : Running numEvents total log sent) {batch : EventRange}
  (hbatch : (batchesOf numEvents)[sent.length]? = some batch)
  (hresult : (batch, .ok result) ∈ log.processed)
include h hbatch hresult

/-- The result of the next batch is sent after those of the batches before it. -/
theorem Running.sent_wrote (state : σ) (answer : Except ε Unit) :
    Sent numEvents (log.wrote state result.rows answer) (sent ++ [result]) := by
  constructor
  · rw [List.length_append, List.length_singleton, List.take_add_one, hbatch]
    exact List.rel_append h.results (.cons hresult .nil)
  · unfold Log.wrote
    rw [List.map_append, List.map_append, h.rows]
    rfl

/-- A call that succeeds leaves the run at the sum with its result. -/
theorem Running.wrote (state : σ) :
    Running numEvents (merged (sent ++ [result])) (log.wrote state result.rows (.ok ()))
      (sent ++ [result]) where
  toSent := h.sent_wrote hbatch hresult state (.ok ())
  fine call hcall := by
    rcases List.mem_append.mp hcall with hold | hnew
    · exact h.fine call hold
    · rw [List.mem_singleton.mp hnew]
  total := rfl

/-- A call that fails is the first one that does. -/
theorem Running.ended_of_refusal (state : σ) (e : ε) :
    Ended numEvents (.error e) (log.wrote state result.rows (.error e)) (sent ++ [result]) where
  toSent := h.sent_wrote hbatch hresult state (.error e)
  stops k rows d hk := by
    unfold Log.wrote at hk ⊢
    rw [List.getElem?_append] at hk
    split at hk
    · exact absurd hk h.no_error
    · rw [List.getElem?_singleton] at hk
      split at hk
      · cases hk
        refine ⟨?_, rfl⟩
        rw [List.length_append, List.length_singleton]
        omega
      · cases hk
  failed d hd := by
    cases hd
    exact ⟨result.rows, List.getLast?_concat⟩
  faulted _ hending := nomatch hending
  completed _ hending := nomatch hending

/-- Settling the result of the next batch sends its rows. A write error ends the run there. -/
theorem Running.ends_settle (write : EmittedRows → StateM σ (Except ε Unit)) :
    Ends (settle (loggedSink write) total result) log
      (fun how later => later.processed = log.processed ∧
        Ended numEvents (how.map .error) later (sent ++ [result]))
      (fun total later => later.processed = log.processed ∧
        Running numEvents total later (sent ++ [result])) := by
  have hsum : total.merge result.takeRows.2 = (merged (sent ++ [result])).checked := by
    rw [merged_concat, h.total]
    rfl
  unfold settle
  refine Ends.bind (ends_loggedSink (fun state => ?_) fun state e =>
    ⟨rfl, h.ended_of_refusal hbatch hresult state e⟩)
  -- The rows were written. What is left is the sum of the counters.
  have hwrote := h.wrote hbatch hresult state
  change Ends (raise (total.merge result.takeRows.2)) _ _ _
  rw [hsum]
  unfold RunAccumulator.checked
  refine ends_raise (fun total htotal => ⟨rfl, ?_⟩) fun fault hfault => ⟨rfl, ?_⟩
  · split at htotal
    · cases htotal
      exact hwrote
    · cases htotal
  · split at hfault
    · cases hfault
    · cases hfault
      exact hwrote.ended_of_fault (.inr ⟨rfl, .inr ‹_›⟩)

end

/-! ## One thread -/

theorem batchAt_eq_ok {index : Nat} {batch : EventRange}
    (h : batchAt numEvents index = .ok batch) : batch = batchOf numEvents index := by
  unfold batchAt at h
  dsimp only at h
  split at h
  · exact (Except.ok.inj h).symm
  · cases h

theorem batchAt_eq_error {index : Nat} {fault : Fault} (hindex : index < batchCount numEvents)
    (h : batchAt numEvents index = .error fault) :
    fault = .counterOverflow ∧ checkBatches numEvents ≠ .ok () := by
  constructor
  · unfold batchAt at h
    dsimp only at h
    split at h
    · cases h
    · exact (Except.error.inj h).symm
  · intro hfits
    cases h.symm.trans (batchAt_eq hfits hindex)

theorem checkBatches_eq_error {fault : Fault} (h : checkBatches numEvents = .error fault) :
    fault = .counterOverflow := by
  unfold checkBatches at h
  split at h
  · cases h
  · exact (Except.error.inj h).symm

theorem length_batchesOf : (batchesOf numEvents).length = batchCount numEvents := by
  unfold batchesOf
  rw [List.length_map, List.length_range]

theorem getElem?_batchesOf {index : Nat} (hindex : index < batchCount numEvents) :
    (batchesOf numEvents)[index]? = some (batchOf numEvents index) := by
  unfold batchesOf
  rw [List.getElem?_map, List.getElem?_range hindex]
  rfl

theorem nodup_batchesOf : (batchesOf numEvents).Nodup := by
  refine List.nodup_range.map fun i j h => ?_
  have hstart := congrArg EventRange.start h
  unfold batchOf batchSize at hstart
  dsimp only at hstart
  omega

/-- No batch of a run was worked on twice. -/
structure Log.EachOnce (log : Log σ ε) (numEvents : Nat) : Prop where
  once : log.batches.Nodup
  made : log.batches ⊆ batchesOf numEvents

/-- One thread works on the batches in their order, and on none after a write error. -/
structure EndedInTurn (numEvents : Nat) (ending : Except ε (Except Fault RunAccumulator))
    (log : Log σ ε) (sent : List RunAccumulator) : Prop extends
    Ended numEvents ending log sent where
  inOrder : log.batches <+: batchesOf numEvents
  none_after : ∀ e, ending = .error e →
    log.batches = (batchesOf numEvents).take log.written.length

/-- Batches that were picked from those of the run, each at most once. -/
theorem Log.eachOnce_of_subperm (h : log.batches.Subperm (batchesOf numEvents)) :
    log.EachOnce numEvents := by
  obtain ⟨picked, hperm, hsub⟩ := h
  exact ⟨hperm.nodup_iff.mp (nodup_batchesOf.sublist hsub),
    fun _ hmem => hsub.subset (hperm.mem_iff.mpr hmem)⟩

theorem EndedInTurn.eachOnce {ending : Except ε (Except Fault RunAccumulator)}
    (h : EndedInTurn numEvents ending log sent) : log.EachOnce numEvents :=
  Log.eachOnce_of_subperm h.inOrder.sublist.subperm

section

variable (work : EventRange → StateM σ (Except Fault RunAccumulator))
  (write : EmittedRows → StateM σ (Except ε Unit))

/-- A thread that has sent the results of the batches it has worked on does so with the next
batch as well. -/
theorem ends_processBatch {index : Nat} (hindex : index < batchCount numEvents)
    (hlength : sent.length = index) (h : Running numEvents total log sent)
    (hbatches : log.batches = (batchesOf numEvents).take index) :
    Ends (processBatch numEvents (loggedKernel work) (loggedSink write) total index) log
      (fun how later => ∃ sent, EndedInTurn numEvents (how.map .error) later sent)
      (fun total later => ∃ sent, sent.length = index + 1 ∧ Running numEvents total later sent ∧
        later.batches = (batchesOf numEvents).take (index + 1)) := by
  have hnext := getElem?_batchesOf hindex
  have hworked : ∀ state result, (log.worked state (batchOf numEvents index) result).batches =
      (batchesOf numEvents).take (index + 1) := by
    intro state result
    rw [Log.batches_worked, List.take_add_one, hnext, hbatches]
    rfl
  unfold processBatch
  refine Ends.bind (ends_raise (fun batch hbatch => ?_) fun fault hfault => ?_)
  · obtain rfl := batchAt_eq_ok hbatch
    have hrunning : ∀ state result,
        Running numEvents total (log.worked state (batchOf numEvents index) result) sent :=
      fun state result => h.worked (List.subset_append_left _ _) rfl
    have hnoted : ∀ state result, (batchOf numEvents index, result) ∈
        (log.worked state (batchOf numEvents index) result).processed :=
      fun state result => List.mem_append_right _ List.mem_cons_self
    refine Ends.bind (ends_loggedKernel (fun state result => ?_) fun state fault => ?_)
    · refine ((hrunning state _).ends_settle (hlength ▸ hnext) (hnoted state _) write).mono ?_ ?_
      · rintro how later ⟨hprocessed, hended⟩
        have hbegun : later.batches = (batchesOf numEvents).take (index + 1) :=
          (congrArg (List.map _) hprocessed).trans (hworked state _)
        refine ⟨_, hended, hbegun ▸ List.take_prefix _ _, fun e _ => ?_⟩
        rw [hbegun, hended.length_written, List.length_append, hlength, List.length_singleton]
      · rintro later_total later ⟨hprocessed, hlater⟩
        refine ⟨_, ?_, hlater, (congrArg (List.map _) hprocessed).trans (hworked state _)⟩
        rw [List.length_append, hlength, List.length_singleton]
    · have hended := (hrunning state _).ended_of_fault (.inl ⟨_, hnoted state (.error fault)⟩)
      exact ⟨sent, hended, hworked state _ ▸ List.take_prefix _ _, nofun⟩
  · obtain ⟨rfl, hunmade⟩ := batchAt_eq_error hindex hfault
    have hprefix := List.take_prefix index (batchesOf numEvents)
    exact ⟨sent, h.ended_of_fault (.inr ⟨rfl, .inl hunmade⟩), hbatches ▸ hprefix, nofun⟩

theorem ends_sequential (hevents : 0 < numEvents) (state : σ) :
    Ends (sequential numEvents (loggedKernel work) (loggedSink write)) (.start state)
      (fun how later => ∃ sent, EndedInTurn numEvents (how.map .error) later sent)
      (fun total later => ∃ sent, EndedInTurn numEvents (.ok (.ok total)) later sent) := by
  unfold sequential
  rw [if_neg (Nat.ne_of_gt hevents)]
  refine (ends_stepThrough (I := fun index total log => ∃ sent, sent.length = index ∧
    Running numEvents total log sent ∧ log.batches = (batchesOf numEvents).take index) ?_
    ⟨[], rfl, .start state, rfl⟩).mono (fun _ _ h => h) ?_
  · rintro index _ hindex total log ⟨sent, hlength, h, hbatches⟩
    exact ends_processBatch work write (by omega) hlength h hbatches
  · rintro total later ⟨sent, hlength, h, hbatches⟩
    exact ⟨sent, h.ended_of_all (by omega), hbatches ▸ List.take_prefix _ _, nofun⟩

end

/-! ## Many threads -/

/-- Slots hold the same when the batches that are done have the same results. -/
theorem slotsAfter_congr {f g : EventRange → RunAccumulator} {wave : List EventRange}
    {done : List Nat} (h : ∀ i ∈ done, ∀ batch, wave[i]? = some batch → f batch = g batch) :
    slotsAfter f wave done = slotsAfter g wave done := by
  apply List.ext_getElem?
  intro i
  rw [getElem?_slotsAfter, getElem?_slotsAfter]
  cases hi : wave[i]? with
  | none => rfl
  | some batch =>
    by_cases hdone : i ∈ done
    · simp [hdone, h i hdone batch hi]
    · simp [hdone]

theorem filterMap_getElem?_range {γ : Type} (xs : List γ) :
    (List.range xs.length).filterMap (xs[·]?) = xs := by
  induction xs with
  | nil => rfl
  | cons x rest ih =>
    rw [List.length_cons, List.range_succ_eq_map, List.filterMap_cons, List.filterMap_map]
    simpa [Function.comp_def] using ih

/-- Fair workers complete a batch that is there and was not completed before. -/
theorem Workers.Fair.not_done {workers : Workers} (hfair : workers.Fair) {wave : List EventRange}
    {done rest : List Nat} {index : Nat}
    (hsplit : workers.completion wave = done ++ index :: rest) :
    index ∉ done ∧ index < wave.length := by
  have honce : (done ++ index :: rest).Nodup :=
    hsplit ▸ (hfair wave).nodup_iff.mpr List.nodup_range
  have hmem : index ∈ workers.completion wave := hsplit ▸ by simp
  exact ⟨fun hdone => (List.nodup_append.mp honce).2.2 index hdone index List.mem_cons_self rfl,
    List.mem_range.mp ((hfair wave).mem_iff.mp hmem)⟩

/-- A wave some of whose batches are done: each was worked on once and has its result in its
slot, and nothing was written. -/
structure WaveAfter (wave : List EventRange) (before : Log σ ε) (done : List Nat) (slots : Slots)
    (log : Log σ ε) (results : EventRange → RunAccumulator) : Prop where
  slots : slots = slotsAfter results wave done
  noted : ∀ i ∈ done, ∀ batch, wave[i]? = some batch →
    (batch, .ok (results batch)) ∈ log.processed
  kept : before.processed ⊆ log.processed
  written : log.written = before.written
  batches : log.batches = before.batches ++ done.filterMap (wave[·]?)

theorem WaveAfter.start (wave : List EventRange) (log : Log σ ε)
    (results : EventRange → RunAccumulator) :
    WaveAfter wave log [] (List.replicate wave.length none) log results where
  slots := (slotsAfter_nil results wave).symm
  noted _ h := nomatch h
  kept := List.Subset.refl _
  written := rfl
  batches := by simp

section

variable {wave : List EventRange} (hwave : wave.Nodup) {before : Log σ ε} {done : List Nat}
  {slots : Slots} {results : EventRange → RunAccumulator}
  (h : WaveAfter wave before done slots log results) {index : Nat} {batch : EventRange}
  (hbatch : wave[index]? = some batch) (hnew : index ∉ done)
include hwave h hbatch hnew

/-- The next batch of a wave finds its slot empty. -/
theorem WaveAfter.report (state : σ) (result : RunAccumulator) :
    ∃ filled, slots.report index result = .ok filled ∧
      WaveAfter wave before (done ++ [index]) filled (log.worked state batch (.ok result))
        (Function.update results batch result) := by
  -- The batches of the wave that are done are other ones.
  have hothers : ∀ i ∈ done, ∀ other, wave[i]? = some other → other ≠ batch := by
    rintro i hi other hother rfl
    have hlt := (List.getElem?_eq_some_iff.mp hother).1
    exact hnew ((List.getElem?_inj hlt hwave).mp (hother.trans hbatch.symm) ▸ hi)
  have hsame : ∀ i ∈ done, ∀ other, wave[i]? = some other →
      Function.update results batch result other = results other := fun i hi other hother =>
    Function.update_of_ne (hothers i hi other hother) _ _
  have hreport := report_slotsAfter (Function.update results batch result) hbatch hnew
  rw [slotsAfter_congr hsame, ← h.slots, Function.update_self] at hreport
  refine ⟨_, hreport, rfl, ?_, ?_, h.written, ?_⟩
  · intro i hi other hother
    rcases List.mem_append.mp hi with hold | hlast
    · rw [hsame i hold other hother]
      exact List.mem_append_left _ (h.noted i hold other hother)
    · obtain rfl := List.mem_singleton.mp hlast
      obtain rfl := Option.some.inj (hbatch.symm.trans hother)
      rw [Function.update_self]
      exact List.mem_append_right _ List.mem_cons_self
  · exact List.Subset.trans h.kept (List.subset_append_left _ _)
  · rw [Log.batches_worked, h.batches, List.filterMap_append, List.append_assoc]
    simp [hbatch]

end

section

variable (work : EventRange → StateM σ (Except Fault RunAccumulator))
  (write : EmittedRows → StateM σ (Except ε Unit))

/-- Fair workers do each batch of a wave once. They stop early only in a fault. -/
theorem ends_processWave {workers : Workers} (hfair : workers.Fair) {wave : List EventRange}
    (hwave : wave.Nodup) :
    Ends (processWave workers (loggedKernel work) wave) log
      (fun how later => ∃ fault batch begun, how = .ok fault ∧
        (batch, .error fault) ∈ later.processed ∧ log.processed ⊆ later.processed ∧
        later.written = log.written ∧ later.batches = log.batches ++ begun ∧
        begun.Subperm wave)
      (fun slots later => ∃ results : EventRange → RunAccumulator,
        slots = wave.map (fun batch => some (results batch)) ∧
        (∀ batch ∈ wave, (batch, .ok (results batch)) ∈ later.processed) ∧
        log.processed ⊆ later.processed ∧ later.written = log.written ∧
        later.batches.Perm (log.batches ++ wave)) := by
  have hwhole : ((workers.completion wave).filterMap (wave[·]?)).Perm wave := by
    have hperm := (hfair wave).filterMap (wave[·]?)
    rwa [filterMap_getElem?_range] at hperm
  unfold processWave
  refine (ends_foldlM (I := fun done slots later => ∃ results,
    WaveAfter wave log done slots later results) ?_
    ⟨fun _ => .empty, WaveAfter.start wave log _⟩).mono (fun _ _ h => h) ?_
  · rintro done index rest hsplit slots later ⟨results, h⟩
    obtain ⟨hnew, hthere⟩ := hfair.not_done hsplit
    have hbatch := List.getElem?_eq_getElem hthere
    rw [hbatch]
    refine Ends.bind (ends_loggedKernel (fun state result => ?_) fun state fault => ?_)
    · obtain ⟨filled, hreport, hfilled⟩ := h.report hwave hbatch hnew state result
      rw [hreport]
      exact .returned rfl ⟨_, hfilled⟩
    · refine ⟨fault, wave[index], (done ++ [index]).filterMap (wave[·]?), rfl,
        List.mem_append_right _ List.mem_cons_self,
        List.Subset.trans h.kept (List.subset_append_left _ _), h.written, ?_, ?_⟩
      · rw [Log.batches_worked, h.batches, List.filterMap_append, List.append_assoc]
        simp [hbatch]
      · have hbegun : (done ++ [index]).Sublist (workers.completion wave) := by
          rw [hsplit, List.append_cons done index rest]
          exact List.sublist_append_left _ _
        exact (hbegun.filterMap _).subperm.trans hwhole.subperm
  · rintro slots later ⟨results, h⟩
    have hall : ∀ i < wave.length, i ∈ workers.completion wave := fun i hi =>
      (hfair wave).mem_iff.mpr (List.mem_range.mpr hi)
    refine ⟨results, h.slots.trans (slotsAfter_of_all results hall), ?_, h.kept, h.written, ?_⟩
    · intro batch hmem
      obtain ⟨i, hi⟩ := List.getElem?_of_mem hmem
      exact h.noted i (hall i (List.getElem?_eq_some_iff.mp hi).1) batch hi
    · rw [h.batches]
      exact hwhole.append_left _

/-- A wave is settled batch after batch. -/
theorem Running.ends_settleWave (h : Running numEvents total log sent) {wave : List EventRange}
    (hplace : wave <+: (batchesOf numEvents).drop sent.length)
    {results : EventRange → RunAccumulator}
    (hresults : ∀ batch ∈ wave, (batch, .ok (results batch)) ∈ log.processed) :
    Ends (settleWave (loggedSink write) total (wave.map fun batch => some (results batch))) log
      (fun how later => later.processed = log.processed ∧ ∃ sent' : List RunAccumulator,
        sent.length < sent'.length ∧ sent'.length ≤ sent.length + wave.length ∧
        Ended numEvents (how.map .error) later sent')
      (fun total later => later.processed = log.processed ∧
        Running numEvents total later (sent ++ wave.map results)) := by
  unfold settleWave
  rw [List.foldlM_map]
  refine ends_foldlM (I := fun done total later => later.processed = log.processed ∧
    Running numEvents total later (sent ++ done.map results)) ?_ ⟨rfl, by simpa using h⟩
  rintro done batch rest rfl total later ⟨hprocessed, hrunning⟩
  have hbatch : (batchesOf numEvents)[(sent ++ done.map results).length]? = some batch := by
    obtain ⟨after, hafter⟩ := hplace
    have hget := congrArg (fun bs : List EventRange => bs[done.length]?) hafter
    simpa [List.getElem?_drop] using hget.symm
  have hnoted : (batch, .ok (results batch)) ∈ later.processed :=
    hprocessed ▸ hresults batch (by simp)
  refine Ends.bind (.returned rfl ((hrunning.ends_settle hbatch hnoted write).mono ?_ ?_))
  · rintro how last ⟨hlast, hended⟩
    refine ⟨hlast.trans hprocessed, _, ?_, ?_, hended⟩
    · simp
    · simp
  · rintro total last ⟨hlast, hrunning⟩
    refine ⟨hlast.trans hprocessed, ?_⟩
    rw [List.map_append, ← List.append_assoc]
    exact hrunning

end

namespace Workers

/-- The number of batches up to the end of the wave that a batch is in, for the batch with a
number counted from one. -/
def endOfWave (w : Workers) (batch : Nat) : Nat :=
  (batch + w.waveSize - 1) / w.waveSize * w.waveSize

theorem waveSize_pos (w : Workers) : 0 < w.waveSize := Nat.mul_pos (by decide) w.threads_pos

theorem endOfWave_eq (w : Workers) {batch index : Nat} (hafter : index * w.waveSize < batch)
    (hlast : batch ≤ (index + 1) * w.waveSize) : w.endOfWave batch = (index + 1) * w.waveSize := by
  have hpos := w.waveSize_pos
  unfold endOfWave
  congr 1
  rw [Nat.succ_mul] at hlast
  apply Nat.div_eq_of_lt_le
  · rw [Nat.succ_mul]
    omega
  · rw [Nat.succ_mul, Nat.succ_mul]
    omega

/-- The batches that come after those of some waves. -/
def nextWave (w : Workers) (numEvents index : Nat) : List EventRange :=
  ((batchesOf numEvents).drop (index * w.waveSize)).take w.waveSize

theorem waveAt_eq_nextWave (w : Workers) (hfits : checkBatches numEvents = .ok ())
    (index : Nat) : w.waveAt numEvents index = .ok (w.nextWave numEvents index) := by
  rw [waveAt_eq hfits]
  congr 1
  unfold nextWave batchesOf
  rw [← List.map_drop, ← List.map_take]
  congr 1
  rw [List.range_eq_range', List.drop_range', Nat.mul_one, Nat.zero_add]
  rcases Nat.le_total w.waveSize (batchCount numEvents - index * w.waveSize) with hfull | hlast
  · rw [Nat.min_eq_left hfull, List.take_range'_of_length_ge hfull]
  · rw [Nat.min_eq_right hlast, List.take_range'_of_length_le hlast]

theorem take_succ_mul_waveSize (w : Workers) (numEvents index : Nat) :
    (batchesOf numEvents).take ((index + 1) * w.waveSize) =
      (batchesOf numEvents).take (index * w.waveSize) ++ w.nextWave numEvents index := by
  rw [Nat.succ_mul, List.take_add]
  rfl

theorem nodup_nextWave (w : Workers) (numEvents index : Nat) :
    (w.nextWave numEvents index).Nodup :=
  nodup_batchesOf.sublist ((List.take_sublist _ _).trans (List.drop_sublist _ _))

theorem length_nextWave (w : Workers) (numEvents index : Nat) :
    (w.nextWave numEvents index).length =
      min w.waveSize (batchCount numEvents - index * w.waveSize) := by
  unfold nextWave
  rw [List.length_take, List.length_drop, length_batchesOf]

/-- Every wave has a batch. -/
theorem start_lt_of_lt_waveCount (w : Workers) {index : Nat}
    (hindex : index < w.waveCount numEvents) : index * w.waveSize < batchCount numEvents := by
  have hpos := w.waveSize_pos
  unfold waveCount at hindex
  have hle := (Nat.le_div_iff_mul_le hpos).mp hindex
  rw [Nat.succ_mul] at hle
  omega

end Workers

/-- Many threads work on whole waves. After a write error none of them is begun. -/
structure EndedInWaves (workers : Workers) (numEvents : Nat)
    (ending : Except ε (Except Fault RunAccumulator)) (log : Log σ ε)
    (sent : List RunAccumulator) : Prop extends Ended numEvents ending log sent where
  eachOnce : log.EachOnce numEvents
  none_after : ∀ e, ending = .error e →
    log.batches.Perm ((batchesOf numEvents).take (workers.endOfWave log.written.length))

section

variable (work : EventRange → StateM σ (Except Fault RunAccumulator))
  (write : EmittedRows → StateM σ (Except ε Unit)) {workers : Workers} (hfair : workers.Fair)
include hfair

/-- Workers that have sent the results of the waves they have worked on do so with the next
wave as well. -/
theorem ends_runWave (hfits : checkBatches numEvents = .ok ()) {index : Nat}
    (hindex : index * workers.waveSize < batchCount numEvents)
    (hlength : sent.length = index * workers.waveSize) (h : Running numEvents total log sent)
    (hbatches : log.batches.Perm ((batchesOf numEvents).take (index * workers.waveSize))) :
    Ends (runWave workers numEvents (loggedKernel work) (loggedSink write) total index) log
      (fun how later => ∃ sent, EndedInWaves workers numEvents (how.map .error) later sent)
      (fun total later => ∃ sent,
        sent.length = min ((index + 1) * workers.waveSize) (batchCount numEvents) ∧
        Running numEvents total later sent ∧
        later.batches.Perm ((batchesOf numEvents).take ((index + 1) * workers.waveSize))) := by
  have hsplit := workers.take_succ_mul_waveSize numEvents index
  have hcount := workers.length_nextWave numEvents index
  have hplace : workers.nextWave numEvents index <+: (batchesOf numEvents).drop sent.length :=
    hlength ▸ List.take_prefix _ _
  unfold runWave
  rw [workers.waveAt_eq_nextWave hfits]
  refine Ends.bind (.returned rfl ?_)
  have honce := workers.nodup_nextWave numEvents index
  refine Ends.bind ((ends_processWave work hfair honce).mono ?_ ?_)
  · rintro how later ⟨fault, batch, begun, rfl, hfault, hkept, hwritten, hbegun, hsub⟩
    refine ⟨sent, (h.worked hkept hwritten).ended_of_fault (.inl ⟨batch, hfault⟩), ?_, nofun⟩
    apply Log.eachOnce_of_subperm
    rw [hbegun]
    exact (hbatches.subperm.append hsub).trans (hsplit ▸ (List.take_sublist _ _).subperm)
  · rintro slots later ⟨results, rfl, hresults, hkept, hwritten, hperm⟩
    have hdone : later.batches.Perm
        ((batchesOf numEvents).take ((index + 1) * workers.waveSize)) := by
      rw [hsplit]
      exact hperm.trans (hbatches.append_right _)
    refine ((h.worked hkept hwritten).ends_settleWave write hplace hresults).mono ?_ ?_
    · rintro how last ⟨hprocessed, sent', hmore, hless, hended⟩
      have hlast : last.batches = later.batches := congrArg (List.map _) hprocessed
      refine ⟨sent', hended, Log.eachOnce_of_subperm ?_, fun e _ => ?_⟩
      · rw [hlast]
        exact hdone.subperm.trans (List.take_sublist _ _).subperm
      · have hend : workers.endOfWave sent'.length = (index + 1) * workers.waveSize :=
          workers.endOfWave_eq (by omega) (by rw [Nat.succ_mul]; omega)
        rw [hlast, hended.length_written, hend]
        exact hdone
    · rintro total last ⟨hprocessed, hrunning⟩
      have hlast : last.batches = later.batches := congrArg (List.map _) hprocessed
      refine ⟨_, ?_, hrunning, hlast ▸ hdone⟩
      rw [List.length_append, List.length_map, hcount, hlength, Nat.succ_mul]
      omega

theorem ends_threaded (hevents : 0 < numEvents) (state : σ) :
    Ends (threaded workers numEvents (loggedKernel work) (loggedSink write)) (.start state)
      (fun how later => ∃ sent, EndedInWaves workers numEvents (how.map .error) later sent)
      (fun total later => ∃ sent, EndedInWaves workers numEvents (.ok (.ok total)) later sent) := by
  have hstart : Running numEvents .empty (.start state : Log σ ε) [] := .start state
  unfold threaded
  rw [if_neg (Nat.ne_of_gt hevents)]
  refine Ends.bind (ends_raise (fun _ hfits => ?_) fun fault hfault => ?_)
  · refine (ends_stepThrough (I := fun index total log => ∃ sent,
      sent.length = min (index * workers.waveSize) (batchCount numEvents) ∧
      Running numEvents total log sent ∧
      log.batches.Perm ((batchesOf numEvents).take (index * workers.waveSize))) ?_
      ⟨[], by simp, hstart, by simp [Log.batches, Log.start]⟩).mono (fun _ _ h => h) ?_
    · rintro index _ hindex total log ⟨sent, hlength, h, hbatches⟩
      have hbegin := workers.start_lt_of_lt_waveCount (by simpa using hindex)
      exact ends_runWave work write hfair hfits hbegin (by omega) h hbatches
    · rintro total later ⟨sent, hlength, h, hbatches⟩
      have hall := batchCount_le_waves workers numEvents
      rw [Nat.zero_add] at hlength hbatches
      refine ⟨sent, h.ended_of_all (by omega), ?_, nofun⟩
      exact Log.eachOnce_of_subperm (hbatches.subperm.trans (List.take_sublist _ _).subperm)
  · have hoverflow := checkBatches_eq_error hfault
    have hunmade : checkBatches numEvents ≠ .ok () := fun hfits => by cases hfault.symm.trans hfits
    exact ⟨[], hstart.ended_of_fault (.inr ⟨hoverflow, .inl hunmade⟩),
      Log.eachOnce_of_subperm (List.nil_sublist _).subperm, nofun⟩

end

/-! ## Runs that end -/

/-- How a watched run ends, and its log. -/
def watch (run : Logged σ ε α) (state : σ) : Except ε (Except Fault α) × Log σ ε :=
  run.run.run.run (.start state)

theorem Ends.of_start {run : Logged σ ε α} {state : σ}
    {Q : Except ε (Except Fault α) → Log σ ε → Prop}
    (h : Ends run (.start state) (fun how log => Q (how.map .error) log)
      fun a log => Q (.ok (.ok a)) log) : Q (watch run state).1 (watch run state).2 := by
  unfold watch
  cases h with
  | failed hrun h => rw [hrun]; exact h
  | faulted hrun h => rw [hrun]; exact h
  | returned hrun h => rw [hrun]; exact h

/-- A write error ends a run at once, whatever the work and the sink do. The rows of the
batches are written in the order of the batches, up to the first call that fails, and the error
of that call is the end of the run. One thread has worked on no later batch by then, and many
threads on none behind the wave of that batch. No batch is worked on twice in any run. -/
theorem a_write_error_ends_the_run_at_once
    (work : EventRange → StateM σ (Except Fault RunAccumulator))
    (write : EmittedRows → StateM σ (Except ε Unit)) (state : σ) (hevents : 0 < numEvents) :
    (∃ sent, let run := watch (sequential numEvents (loggedKernel work) (loggedSink write)) state
      EndedInTurn numEvents run.1 run.2 sent ∧ run.2.EachOnce numEvents) ∧
    ∀ workers : Workers, workers.Fair → ∃ sent,
      let run := watch (threaded workers numEvents (loggedKernel work) (loggedSink write)) state
      EndedInWaves workers numEvents run.1 run.2 sent ∧ run.2.EachOnce numEvents := by
  constructor
  · obtain ⟨sent, h⟩ := Ends.of_start (Q := fun ending log => ∃ sent,
      EndedInTurn numEvents ending log sent) (ends_sequential work write hevents state)
    exact ⟨sent, h, h.eachOnce⟩
  · intro workers hfair
    obtain ⟨sent, h⟩ := Ends.of_start (Q := fun ending log => ∃ sent,
      EndedInWaves workers numEvents ending log sent)
      (ends_threaded work write hfair hevents state)
    exact ⟨sent, h, h.eachOnce⟩

end DecaySearch.Schedule

namespace DecaySearch

open Schedule

namespace Sample

/-- A sink that counts its calls and fails at the third. -/
def refuseThird (_ : EmittedRows) : StateM Nat (Except String Unit) := fun calls =>
  (if calls = 2 then .error "disk full" else .ok (), calls + 1)

/-- How a run over ten batches ends on one thread, and its log. -/
def inTurn : Except String (Except Fault RunAccumulator) × Log Nat String :=
  watch (sequential 9500 (loggedKernel fun batch => pure (.ok (countEvents batch)))
    (loggedSink refuseThird)) 0

/-- How it ends with two workers, whose waves have eight batches. -/
def inWaves : Except String (Except Fault RunAccumulator) × Log Nat String :=
  watch (threaded backwards 9500 (loggedKernel fun batch => pure (.ok (countEvents batch)))
    (loggedSink refuseThird)) 0

end Sample

open Sample in
theorem the_third_call_is_the_last_one :
    0 < 9500 ∧ backwards.Fair ∧
    (inTurn.1 = .error "disk full" ∧ inTurn.2.written.length = 3 ∧
      inTurn.2.batches = (batchesOf 9500).take 3) ∧
    inWaves.1 = .error "disk full" ∧ inWaves.2.written.length = 3 ∧
      inWaves.2.batches.Perm ((batchesOf 9500).take 8) := by
  obtain ⟨⟨_, hturn, _⟩, hwaves⟩ := a_write_error_ends_the_run_at_once
    (fun batch => pure (.ok (countEvents batch))) refuseThird 0 (show 0 < 9500 by decide)
  obtain ⟨_, hwave, _⟩ := hwaves backwards backwards_fair
  refine ⟨by decide, backwards_fair, ?_, ?_⟩
  · obtain ⟨hthree, herror⟩ := hturn.stops 2 .empty "disk full" rfl
    have hnone := hturn.none_after _ herror
    rw [hthree] at hnone
    exact ⟨herror, hthree, hnone⟩
  · obtain ⟨hthree, herror⟩ := hwave.stops 2 .empty "disk full" rfl
    have hnone := hwave.none_after _ herror
    rw [hthree] at hnone
    exact ⟨herror, hthree, hnone⟩

end DecaySearch
