-- The two orders of work are indistinguishable. A wave of batches that is done in
-- any order leaves every result in its own slot, and is then settled as if its
-- batches had been processed one after the other.
import Mathlib.Data.List.Basic
import DecaySearch.Schedule
import DecaySearch.Proofs.WellFormed

namespace DecaySearch.Schedule

/-! ## Steps as folds -/

section

variable {m : Type → Type} [Monad m] {α σ : Type}

/-- Steps that agree on all elements of a list fold it alike. -/
theorem foldlM_congr {f g : σ → α → m σ} (xs : List α) (h : ∀ s, ∀ x ∈ xs, f s x = g s x)
    (s : σ) : xs.foldlM f s = xs.foldlM g s := by
  induction xs generalizing s with
  | nil => rfl
  | cons x rest ih =>
    rw [List.foldlM_cons, List.foldlM_cons, h s x List.mem_cons_self]
    congr 1
    funext t
    exact ih (fun s y hy => h s y (List.mem_cons_of_mem _ hy)) t

theorem stepThrough_eq_foldlM (step : σ → Nat → m σ) (count first : Nat) (s : σ) :
    stepThrough step count first s = (List.range' first count).foldlM step s := by
  induction count generalizing first s with
  | zero => rfl
  | succ count ih =>
    rw [List.range'_succ, List.foldlM_cons]
    unfold stepThrough
    congr 1
    funext t
    exact ih (first + 1) t

end

/-! ## Batches that can be made -/

/-- The batch of an index, if its end fits into 64 bits. -/
def batchOf (numEvents index : Nat) : EventRange :=
  ⟨index * batchSize, min (index * batchSize + batchSize) numEvents⟩

theorem checkBatches_eq_ok_iff (numEvents : Nat) :
    checkBatches numEvents = .ok () ↔ batchCount numEvents * batchSize < Nat.pow 2 64 := by
  unfold checkBatches
  split
  · rename_i h
    exact iff_of_true rfl h
  · rename_i h
    exact iff_of_false (fun hok => by cases hok) h

/-- The batches of a number of events. -/
def batchesOf (numEvents : Nat) : List EventRange :=
  (List.range (batchCount numEvents)).map (batchOf numEvents)

theorem batchAt_eq {numEvents : Nat} (hfits : checkBatches numEvents = .ok ()) {index : Nat}
    (hindex : index < batchCount numEvents) :
    batchAt numEvents index = .ok (batchOf numEvents index) := by
  rw [checkBatches_eq_ok_iff] at hfits
  have hend : index * batchSize + batchSize ≤ batchCount numEvents * batchSize := by
    rw [← Nat.succ_mul]
    exact Nat.mul_le_mul_right _ hindex
  unfold batchAt
  exact if_pos (Nat.lt_of_le_of_lt hend hfits)

/-! ## Batches in waves -/

/-- The batches of some consecutive waves are those of the first wave and then those of
the others. -/
theorem range'_waves (size count first total : Nat) :
    List.range' (first * size) (min ((count + 1) * size) (total - first * size)) =
      List.range' (first * size) (min size (total - first * size)) ++
        List.range' ((first + 1) * size) (min (count * size) (total - (first + 1) * size)) := by
  rw [Nat.succ_mul first, Nat.succ_mul count]
  generalize first * size = start
  generalize count * size = others
  rcases Nat.le_total size (total - start) with hfull | hlast
  · rw [Nat.min_eq_left hfull, List.range'_append_1]
    congr 1
    omega
  · rw [Nat.min_eq_right hlast, show min others (total - (start + size)) = 0 by omega,
      List.range'_zero, List.append_nil]
    congr 1
    omega

/-- The waves reach the last batch. -/
theorem batchCount_le_waves (workers : Workers) (numEvents : Nat) :
    batchCount numEvents ≤ workers.waveCount numEvents * workers.waveSize := by
  have hsize : 0 < workers.waveSize :=
    Nat.mul_pos (by decide) workers.threads_pos
  have hdiv := Nat.div_add_mod (batchCount numEvents + workers.waveSize - 1) workers.waveSize
  have hmod := Nat.mod_lt (batchCount numEvents + workers.waveSize - 1) hsize
  unfold Workers.waveCount
  rw [Nat.mul_comm]
  omega

/-! ## Slots -/

section

variable (kernel : EventRange → RunAccumulator)

/-- The slots of a wave after some of its batches are done. -/
def slotsAfter (wave : List EventRange) (done : List Nat) : Slots :=
  wave.mapIdx fun i batch => if i ∈ done then some (kernel batch) else none

theorem slotsAfter_nil (wave : List EventRange) :
    slotsAfter kernel wave [] = List.replicate wave.length none := by
  unfold slotsAfter
  rw [List.mapIdx_eq_iff]
  intro i
  rcases Nat.lt_or_ge i wave.length with hi | hi
  · simp [hi]
  · simp [hi]

theorem getElem?_slotsAfter (wave : List EventRange) (done : List Nat) (i : Nat) :
    (slotsAfter kernel wave done)[i]? =
      wave[i]?.map fun batch => if i ∈ done then some (kernel batch) else none := by
  unfold slotsAfter
  rw [List.getElem?_mapIdx]

/-- A batch that is not done yet finds its slot empty and fills it. -/
theorem report_slotsAfter {wave : List EventRange} {done : List Nat} {index : Nat}
    {batch : EventRange} (hbatch : wave[index]? = some batch) (hnew : index ∉ done) :
    (slotsAfter kernel wave done).report index (kernel batch) =
      .ok (slotsAfter kernel wave (done ++ [index])) := by
  have hempty : (slotsAfter kernel wave done)[index]? = some none := by
    rw [getElem?_slotsAfter, hbatch]
    simp [hnew]
  have hfilled : (slotsAfter kernel wave done).set index (some (kernel batch)) =
      slotsAfter kernel wave (done ++ [index]) := by
    apply List.ext_getElem?
    intro i
    rw [List.getElem?_set, getElem?_slotsAfter, getElem?_slotsAfter]
    split
    · rename_i hi
      subst hi
      obtain ⟨hlt, _⟩ := List.getElem?_eq_some_iff.mp hempty
      rw [if_pos hlt, hbatch]
      simp
    · rename_i hi
      congr 1
      funext batch
      simp [Ne.symm hi]
  unfold Slots.report
  rw [hempty]
  simp only [hfilled]

/-- When every batch of a wave is done, every slot holds the result of its batch. -/
theorem slotsAfter_of_all {wave : List EventRange} {done : List Nat}
    (hall : ∀ i < wave.length, i ∈ done) :
    slotsAfter kernel wave done = wave.map fun batch => some (kernel batch) := by
  apply List.ext_getElem?
  intro i
  rw [getElem?_slotsAfter, List.getElem?_map]
  cases hi : wave[i]? with
  | none => rfl
  | some batch =>
    obtain ⟨hlt, _⟩ := List.getElem?_eq_some_iff.mp hi
    simp [hall i hlt]

end

/-! ## One wave -/

section

variable {m : Type → Type} [Monad m] [LawfulMonad m] [MonadExceptOf Fault m]
  (kernel : EventRange → RunAccumulator)

omit [LawfulMonad m] in
theorem raise_ok {α : Type} (a : α) : (raise (.ok a) : m α) = pure a := rfl

/-- Does one batch of a wave and stores its result. -/
def fillSlot (wave : List EventRange) (slots : Slots) (index : Nat) : m Slots :=
  match wave[index]? with
  | none => throwThe Fault (.outOfBounds wave.length index)
  | some batch => raise (slots.report index (kernel batch))

theorem processWave_eq_foldlM (workers : Workers) (wave : List EventRange) :
    processWave workers (fun batch => (pure (kernel batch) : m RunAccumulator)) wave =
      (workers.completion wave).foldlM (fillSlot kernel wave) (slotsAfter kernel wave []) := by
  unfold processWave
  simp only [pure_bind]
  rw [slotsAfter_nil]
  rfl

omit [LawfulMonad m] in
theorem fillSlot_eq {wave : List EventRange} {done : List Nat} {index : Nat}
    (hthere : index < wave.length) (hnew : index ∉ done) :
    (fillSlot kernel wave (slotsAfter kernel wave done) index : m Slots) =
      pure (slotsAfter kernel wave (done ++ [index])) := by
  have hbatch := List.getElem?_eq_getElem hthere
  unfold fillSlot
  rw [hbatch]
  simp only [report_slotsAfter kernel hbatch hnew, raise_ok]

/-- Batches that are there and not done yet are done in any order without a fault. -/
theorem foldlM_fillSlot {wave : List EventRange} (rest done : List Nat)
    (honce : (done ++ rest).Nodup) (hthere : ∀ i ∈ rest, i < wave.length) :
    (rest.foldlM (fillSlot kernel wave) (slotsAfter kernel wave done) : m Slots) =
      pure (slotsAfter kernel wave (done ++ rest)) := by
  induction rest generalizing done with
  | nil =>
    rw [List.append_nil]
    rfl
  | cons index rest ih =>
    have hnew : index ∉ done := fun hmem =>
      (List.nodup_append.mp honce).2.2 index hmem index List.mem_cons_self rfl
    rw [List.append_cons] at honce ⊢
    rw [List.foldlM_cons, fillSlot_eq kernel (hthere index List.mem_cons_self) hnew, pure_bind]
    exact ih (done ++ [index]) honce fun i hi => hthere i (List.mem_cons_of_mem _ hi)

/-- Any part of a fair wave fills the slots of its batches and leaves the others empty. -/
theorem processWave_of_prefix {workers : Workers} (hfair : workers.Fair) {wave : List EventRange}
    {done rest : List Nat} (hsplit : workers.completion wave = done ++ rest) :
    processWave { workers with completion := fun _ => done }
        (fun batch => (pure (kernel batch) : m RunAccumulator)) wave =
      pure (slotsAfter kernel wave done) := by
  have hperm := hfair wave
  have honce : (done ++ rest).Nodup := hsplit ▸ hperm.nodup_iff.mpr List.nodup_range
  have hthere : ∀ i ∈ done, i < wave.length := fun i hi =>
    List.mem_range.mp (hperm.mem_iff.mp (hsplit ▸ List.mem_append_left rest hi))
  rw [processWave_eq_foldlM]
  exact foldlM_fillSlot kernel done [] (List.nodup_append.mp honce).1 hthere

/-- Fair workers leave every result of a wave in its slot. -/
theorem processWave_of_fair {workers : Workers} (hfair : workers.Fair) (wave : List EventRange) :
    processWave workers (fun batch => (pure (kernel batch) : m RunAccumulator)) wave =
      pure (wave.map fun batch => some (kernel batch)) := by
  have hall : ∀ i < wave.length, i ∈ workers.completion wave := fun i hi =>
    (hfair wave).mem_iff.mpr (List.mem_range.mpr hi)
  rw [← slotsAfter_of_all kernel hall]
  exact processWave_of_prefix kernel hfair (List.append_nil _).symm

/-- Processes a batch and settles its result. -/
def settleBatch (kernel : Kernel m) (write : Sink m) (total : RunAccumulator)
    (batch : EventRange) : m RunAccumulator := do
  let result ← kernel batch
  settle write total result

/-- The results of a wave are settled in batch order. -/
theorem settleWave_eq (write : Sink m) (wave : List EventRange) (total : RunAccumulator) :
    settleWave write total (wave.map fun batch => some (kernel batch)) =
      wave.foldlM (settleBatch (fun batch => pure (kernel batch)) write) total := by
  unfold settleWave settleBatch
  rw [List.foldlM_map]
  simp only [reported, raise_ok, pure_bind]

/-! ## All waves -/

variable {numEvents : Nat} (hfits : checkBatches numEvents = .ok ()) (write : Sink m)

include hfits

/-- A run on one thread settles its batches in their order. -/
theorem sequential_eq (kernel : Kernel m) (hevents : 0 < numEvents) :
    sequential numEvents kernel write =
      (batchesOf numEvents).foldlM (settleBatch kernel write) .empty := by
  unfold sequential batchesOf
  rw [if_neg (Nat.ne_of_gt hevents), stepThrough_eq_foldlM, ← List.range_eq_range',
    List.foldlM_map]
  apply foldlM_congr
  intro total index hindex
  unfold processBatch settleBatch
  simp only [batchAt_eq hfits (List.mem_range.mp hindex), raise_ok, pure_bind]

omit [LawfulMonad m] [MonadExceptOf Fault m] in
theorem waveAt_eq (workers : Workers) (index : Nat) :
    workers.waveAt numEvents index =
      .ok ((List.range' (index * workers.waveSize)
        (min workers.waveSize (batchCount numEvents - index * workers.waveSize))).map
          (batchOf numEvents)) := by
  unfold Workers.waveAt
  apply mapM_eq_ok_map
  intro i hi
  rw [List.mem_range'_1] at hi
  exact batchAt_eq hfits (by omega)

theorem runWave_eq {workers : Workers} (hfair : workers.Fair) (total : RunAccumulator)
    (index : Nat) :
    runWave workers numEvents (fun batch => (pure (kernel batch) : m RunAccumulator)) write total
        index =
      ((List.range' (index * workers.waveSize)
          (min workers.waveSize (batchCount numEvents - index * workers.waveSize))).map
        (batchOf numEvents)).foldlM
          (settleBatch (fun batch => pure (kernel batch)) write) total := by
  unfold runWave
  simp only [waveAt_eq hfits, raise_ok, pure_bind, processWave_of_fair kernel hfair]
  exact settleWave_eq kernel write _ total

/-- Some consecutive waves settle their batches as one run over all of them. -/
theorem foldlM_runWave {workers : Workers} (hfair : workers.Fair) (count first : Nat)
    (total : RunAccumulator) :
    (List.range' first count).foldlM
        (runWave workers numEvents (fun batch => (pure (kernel batch) : m RunAccumulator)) write)
        total =
      ((List.range' (first * workers.waveSize)
          (min (count * workers.waveSize)
            (batchCount numEvents - first * workers.waveSize))).map (batchOf numEvents)).foldlM
        (settleBatch (fun batch => pure (kernel batch)) write) total := by
  induction count generalizing first total with
  | zero => simp
  | succ count ih =>
    rw [List.range'_succ, List.foldlM_cons, runWave_eq kernel hfits write hfair, range'_waves,
      List.map_append, List.foldlM_append]
    congr 1
    funext total
    exact ih (first + 1) total

/-- A run in waves settles the same batches in the same order. -/
theorem threaded_eq {workers : Workers} (hfair : workers.Fair) (hevents : 0 < numEvents) :
    threaded workers numEvents (fun batch => (pure (kernel batch) : m RunAccumulator)) write =
      (batchesOf numEvents).foldlM (settleBatch (fun batch => pure (kernel batch)) write)
        .empty := by
  unfold threaded batchesOf
  rw [if_neg (Nat.ne_of_gt hevents), hfits, raise_ok, pure_bind, stepThrough_eq_foldlM,
    foldlM_runWave kernel hfits write hfair, Nat.zero_mul, Nat.sub_zero,
    Nat.min_eq_right (batchCount_le_waves workers numEvents), ← List.range_eq_range']

/-- Runs look at the work of the batches only. -/
theorem sequential_congr {kernel other : Kernel m} (hevents : 0 < numEvents)
    (h : ∀ batch ∈ batchesOf numEvents, kernel batch = other batch) :
    sequential numEvents kernel write = sequential numEvents other write := by
  rw [sequential_eq hfits write kernel hevents, sequential_eq hfits write other hevents]
  apply foldlM_congr
  intro total batch hbatch
  unfold settleBatch
  rw [h batch hbatch]

theorem threaded_congr {kernel other : Kernel m} (workers : Workers)
    (h : ∀ batch ∈ batchesOf numEvents, kernel batch = other batch) :
    threaded workers numEvents kernel write = threaded workers numEvents other write := by
  unfold threaded
  split
  · rfl
  · congr 1
    funext _
    rw [stepThrough_eq_foldlM, stepThrough_eq_foldlM]
    apply foldlM_congr
    intro total index _
    unfold runWave
    simp only [waveAt_eq hfits, raise_ok, pure_bind]
    congr 1
    unfold processWave
    apply foldlM_congr
    intro slots i _
    split
    · rfl
    · rename_i batch hget
      obtain ⟨k, hk, rfl⟩ := List.mem_map.mp (List.mem_of_getElem? hget)
      rw [List.mem_range'_1] at hk
      have hbatch : batchOf numEvents k ∈ batchesOf numEvents :=
        List.mem_map_of_mem (List.mem_range.mpr (by omega))
      rw [h _ hbatch]

end

/-! ## Runs of any length -/

/-- Nothing comes after a fault. -/
theorem throw_bind {m : Type → Type} [Monad m] [LawfulMonad m] {α β : Type} (fault : Fault)
    (next : α → ExceptT Fault m β) :
    (throwThe Fault fault : ExceptT Fault m α) >>= next = throwThe Fault fault :=
  ExceptT.ext (pure_bind (Except.error fault) _)

section

variable {m : Type → Type} [Monad m] [LawfulMonad m] {workers : Workers}
  (kernel : EventRange → RunAccumulator) (write : Sink (ExceptT Fault m))

/-- Both runs are the same when every batch can be made. -/
theorem threaded_eq_sequential (hfair : workers.Fair) {numEvents : Nat}
    (hfits : checkBatches numEvents = .ok ()) :
    threaded workers numEvents (fun batch => pure (kernel batch)) write =
      sequential numEvents (fun batch => pure (kernel batch)) write := by
  rcases Nat.eq_zero_or_pos numEvents with hzero | hevents
  · unfold threaded sequential
    rw [if_pos hzero, if_pos hzero]
  · rw [threaded_eq kernel hfits write hfair hevents, sequential_eq hfits write _ hevents]

/-- Only the check of the batches comes first in waves. It fails for more than
18446744073709551000 events, which one thread would notice at the last batch. -/
theorem threaded_eq_checked_sequential (hfair : workers.Fair) (numEvents : Nat) :
    threaded workers numEvents (fun batch => pure (kernel batch)) write =
      (do
        raise (checkBatches numEvents)
        sequential numEvents (fun batch => pure (kernel batch)) write) := by
  cases hcheck : checkBatches numEvents with
  | ok u =>
    rw [threaded_eq_sequential kernel write hfair hcheck, raise_ok, pure_bind]
  | error fault =>
    have hevents : numEvents ≠ 0 := by
      rintro rfl
      cases hcheck
    unfold threaded raise
    rw [if_neg hevents, hcheck]
    exact (throw_bind fault _).trans (throw_bind fault _).symm

/-- The two orders of work are indistinguishable. Fair workers complete each wave in
any order, and yet write the same rows in the same calls and end in the same way as
one thread, whatever the sink does. No result comes twice, and none is missing
when the wave is settled. -/
theorem waves_are_indistinguishable_from_one_thread (hfair : workers.Fair) :
    (∀ numEvents, checkBatches numEvents = .ok () →
      threaded workers numEvents (fun batch => pure (kernel batch)) write =
        sequential numEvents (fun batch => pure (kernel batch)) write) ∧
    (∀ numEvents,
      threaded workers numEvents (fun batch => pure (kernel batch)) write =
        (do
          raise (checkBatches numEvents)
          sequential numEvents (fun batch => pure (kernel batch)) write)) ∧
    ∀ wave,
      (∀ done index rest, workers.completion wave = done ++ index :: rest →
        ∃ slots : Slots,
          processWave { workers with completion := fun _ => done }
              (fun batch => pure (kernel batch)) wave =
            (pure slots : ExceptT Fault m Slots) ∧
          slots[index]? = some none) ∧
      processWave workers (fun batch => pure (kernel batch)) wave =
        (pure (wave.map fun batch => some (kernel batch)) : ExceptT Fault m Slots) := by
  refine ⟨fun numEvents => threaded_eq_sequential kernel write hfair,
    threaded_eq_checked_sequential kernel write hfair, fun wave => ⟨?_, ?_⟩⟩
  · intro done index rest hsplit
    refine ⟨slotsAfter kernel wave done, processWave_of_prefix kernel hfair hsplit, ?_⟩
    have honce : (done ++ index :: rest).Nodup :=
      hsplit ▸ (hfair wave).nodup_iff.mpr List.nodup_range
    have hnew : index ∉ done := fun hmem =>
      (List.nodup_append.mp honce).2.2 index hmem index List.mem_cons_self rfl
    have hthere : index < wave.length := by
      have hmem : index ∈ workers.completion wave := hsplit ▸ by simp
      exact List.mem_range.mp ((hfair wave).mem_iff.mp hmem)
    rw [getElem?_slotsAfter, List.getElem?_eq_getElem hthere]
    simp [hnew]
  · exact processWave_of_fair kernel hfair wave

end

end DecaySearch.Schedule

namespace DecaySearch

open Schedule

namespace Sample

/-- Two workers that complete the batches of a wave from the last to the first. -/
def backwards : Workers := ⟨2, by decide, fun wave => (List.range wave.length).reverse⟩

theorem backwards_fair : backwards.Fair := fun _ => List.reverse_perm _

/-- Counts the events of a batch. -/
def countEvents (batch : EventRange) : RunAccumulator :=
  ⟨{ RunTotals.zero with processedEvents := batch.stop - batch.start }, .empty⟩

/-- A sink that counts its calls and fails at the third. -/
def failThird (_ : EmittedRows) : ExceptT Fault (ExceptT String (StateM Nat)) Unit :=
  ExceptT.lift do
    let calls ← get
    if calls = 2 then throw "disk full" else set (calls + 1)

end Sample

open Sample in
theorem a_failing_sink_is_called_alike_by_both :
    backwards.Fair ∧
    threaded backwards 9500 (fun batch => pure (countEvents batch)) failThird =
      sequential 9500 (fun batch => pure (countEvents batch)) failThird ∧
    (threaded backwards 9500 (fun batch => pure (countEvents batch)) failThird).run.run.run 0 =
      (.error "disk full", 2) := by
  have halike := (waves_are_indistinguishable_from_one_thread countEvents failThird
    backwards_fair).1 9500 rfl
  refine ⟨backwards_fair, halike, ?_⟩
  rw [halike]
  rfl

end DecaySearch
