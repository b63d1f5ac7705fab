-- Batches leave no trace in the results. A run over any consecutive ranges of events
-- writes the rows of all events in their order and counts what one accumulator would
-- count, and no row is left when it ends.
import DecaySearch.Proofs.Accumulation
import DecaySearch.Proofs.Waves

namespace DecaySearch

open Schedule

/-! ## Consecutive ranges -/

/-- Ranges that split the events from `start` up to `stop`. -/
def Consecutive : Nat → Nat → List EventRange → Prop
  | start, stop, [] => start = stop
  | start, stop, range :: rest =>
    range.start = start ∧ start ≤ range.stop ∧ Consecutive range.stop stop rest

theorem EventRange.indices_eq (range : EventRange) :
    range.indices = List.range' range.start (range.stop - range.start) := by
  unfold indices
  rw [List.range_eq_range', List.map_add_range']
  rfl

theorem start_le_of_consecutive {start stop : Nat} {ranges : List EventRange}
    (h : Consecutive start stop ranges) : start ≤ stop := by
  induction ranges generalizing start with
  | nil => exact Nat.le_of_eq h
  | cons range rest ih => exact Nat.le_trans h.2.1 (ih h.2.2)

/-- Consecutive ranges hold each event once and in order. -/
theorem flatMap_indices {start stop : Nat} {ranges : List EventRange}
    (h : Consecutive start stop ranges) :
    ranges.flatMap EventRange.indices = List.range' start (stop - start) := by
  induction ranges generalizing start with
  | nil =>
    have hempty : start = stop := h
    simp [hempty]
  | cons range rest ih =>
    obtain ⟨rfl, hle, hrest⟩ := h
    have hstop := start_le_of_consecutive hrest
    rw [List.flatMap_cons, ih hrest, EventRange.indices_eq]
    have hnext : range.stop = range.start + (range.stop - range.start) := by omega
    rw [show List.range' range.stop (stop - range.stop) =
      List.range' (range.start + (range.stop - range.start)) (stop - range.stop) by rw [← hnext],
      List.range'_append_1]
    congr 1
    omega

theorem indices_of_split {n : Nat} {ranges : List EventRange} (h : Consecutive 0 n ranges) :
    ranges.flatMap EventRange.indices = List.range n := by
  rw [flatMap_indices h, List.range_eq_range', Nat.sub_zero]

/-! ## Returned values -/

section

variable {m : Type → Type} [Monad m] {α : Type}

/-- Nothing that comes next can see a returned value for which `P` fails. -/
def OnlyReturns (P : α → Prop) (x : m α) : Prop :=
  ∀ (β : Type) (f g : α → m β), (∀ a, P a → f a = g a) → x >>= f = x >>= g

theorem onlyReturns_of_imp {P Q : α → Prop} {x : m α} (hx : OnlyReturns P x)
    (h : ∀ a, P a → Q a) : OnlyReturns Q x := by
  intro β f g hfg
  exact hx β f g fun a ha => hfg a (h a ha)

variable [LawfulMonad m] {P : α → Prop}

theorem onlyReturns_pure {a : α} (h : P a) : OnlyReturns P (pure a : m α) := by
  intro β f g hfg
  rw [pure_bind, pure_bind, hfg a h]

theorem onlyReturns_bind {γ : Type} {Q : γ → Prop} {x : m γ} {k : γ → m α}
    (hx : OnlyReturns Q x) (hk : ∀ c, Q c → OnlyReturns P (k c)) : OnlyReturns P (x >>= k) := by
  intro β f g hfg
  rw [bind_assoc, bind_assoc]
  exact hx _ _ _ fun c hc => hk c hc _ f g hfg

omit [LawfulMonad m] in
theorem onlyReturns_true (x : m α) : OnlyReturns (fun _ => True) x := by
  intro β f g hfg
  congr 1
  funext a
  exact hfg a trivial

theorem onlyReturns_foldlM {γ : Type} {step : α → γ → m α} {xs : List γ}
    (hstep : ∀ a, P a → ∀ x ∈ xs, OnlyReturns P (step a x)) {a : α} (ha : P a) :
    OnlyReturns P (xs.foldlM step a) := by
  induction xs generalizing a with
  | nil => exact onlyReturns_pure ha
  | cons x rest ih =>
    rw [List.foldlM_cons]
    refine onlyReturns_bind (hstep a ha x List.mem_cons_self) fun b hb => ih ?_ hb
    intro a ha x hx
    exact hstep a ha x (List.mem_cons_of_mem _ hx)

theorem onlyReturns_throw (P : α → Prop) (fault : Fault) :
    OnlyReturns P (throwThe Fault fault : ExceptT Fault m α) := by
  intro β f g _
  rw [throw_bind, throw_bind]

theorem onlyReturns_raise {x : Except Fault α} (h : ∀ a, x = .ok a → P a) :
    OnlyReturns P (raise x : ExceptT Fault m α) := by
  cases x with
  | error fault => exact onlyReturns_throw P fault
  | ok a => exact onlyReturns_pure (h a rfl)

end

/-! ## One range after the other -/

section

variable (outputs : Nat → EventOutput)

/-- The rows of a range of events. -/
def rowsIn (range : EventRange) : EmittedRows := (gathered outputs range.indices).rows

/-- The accumulator after some more events, if all its rows were written. -/
def countedAfter (total : RunAccumulator) (indices : List Nat) : RunAccumulator :=
  { total with totals := total.totals.add (gathered outputs indices).totals }

theorem countedAfter_nil (total : RunAccumulator) : countedAfter outputs total [] = total := by
  unfold countedAfter
  rw [show (gathered outputs []).totals = .zero from rfl, RunTotals.add_zero]

theorem countedAfter_empty (indices : List Nat) :
    countedAfter outputs .empty indices = ⟨(gathered outputs indices).totals, .empty⟩ := by
  unfold countedAfter RunAccumulator.empty
  rw [RunTotals.zero_add]

theorem countedAfter_append (total : RunAccumulator) (xs ys : List Nat) :
    countedAfter outputs total (xs ++ ys) =
      countedAfter outputs (countedAfter outputs total xs) ys := by
  unfold countedAfter
  rw [gathered_append, show ∀ a b : RunAccumulator, (a.append b).totals = a.totals.add b.totals
    from fun _ _ => rfl, RunTotals.add_assoc]

/-- The part of a run that processes some ranges, one after the other. -/
def settleRanges {m : Type → Type} [Monad m] (write : Sink (ExceptT Fault m))
    (total : RunAccumulator) (ranges : List EventRange) : ExceptT Fault m RunAccumulator :=
  ranges.foldlM (settleBatch (fun range => raise (integrateRange outputs range)) write) total

variable {total : RunAccumulator} {range : EventRange}

theorem fits_gathered {indices : List Nat}
    (h : (countedAfter outputs total indices).totals.counts.fits = true) :
    total.totals.counts.fits = true ∧ (gathered outputs indices).totals.counts.fits = true :=
  EventCounts.fits_of_fits_add h

/-- Settling the accumulator of a range writes its rows and adds its counts. -/
theorem settle_gathered {m : Type → Type} [Monad m] (write : Sink (ExceptT Fault m)) :
    settle write total (gathered outputs range.indices) =
      (do
        write (rowsIn outputs range)
        raise (countedAfter outputs total range.indices).checked) := by
  have hrest : total.append { gathered outputs range.indices with rows := .empty } =
      countedAfter outputs total range.indices := by
    simp [RunAccumulator.append, EmittedRows.append, EmittedRows.empty, countedAfter]
  rw [← hrest]
  rfl

theorem settleBatch_of_fits {m : Type → Type} [Monad m] [LawfulMonad m]
    (write : Sink (ExceptT Fault m))
    (h : (countedAfter outputs total range.indices).totals.counts.fits = true) :
    settleBatch (fun range => raise (integrateRange outputs range)) write total range =
      (do
        write (rowsIn outputs range)
        pure (countedAfter outputs total range.indices)) := by
  have hown : integrateRange outputs range = .ok (gathered outputs range.indices) := by
    rw [integrateRange_eq]
    exact if_pos (fits_gathered outputs h).2
  have hsum : (countedAfter outputs total range.indices).checked =
      .ok (countedAfter outputs total range.indices) := if_pos h
  unfold settleBatch
  simp only [hown, raise_ok, pure_bind, settle_gathered, hsum]

/-- A range with which a counter does not fit any more ends the run. Its rows may have
been written before that. -/
theorem settleBatch_of_overflow
    (h : ¬ (countedAfter outputs total range.indices).totals.counts.fits = true) :
    ∃ written, written <+: [rowsIn outputs range] ∧
      ∀ (m : Type → Type) [Monad m] [LawfulMonad m] (write : Sink (ExceptT Fault m)),
        settleBatch (fun range => raise (integrateRange outputs range)) write total range =
          (do
            forM written write
            throwThe Fault .counterOverflow) := by
  by_cases hown : (gathered outputs range.indices).totals.counts.fits = true
  · refine ⟨[rowsIn outputs range], List.prefix_rfl, ?_⟩
    intro m _ _ write
    have hkernel : integrateRange outputs range = .ok (gathered outputs range.indices) := by
      rw [integrateRange_eq]
      exact if_pos hown
    have hsum : (countedAfter outputs total range.indices).checked = .error .counterOverflow :=
      if_neg h
    unfold settleBatch
    simp only [hkernel, raise_ok, pure_bind, settle_gathered, hsum]
    simp [raise]
  · refine ⟨[], List.nil_prefix, ?_⟩
    intro m _ _ write
    have hkernel : integrateRange outputs range = .error .counterOverflow := by
      rw [integrateRange_eq]
      exact if_neg hown
    unfold settleBatch
    simp only [hkernel, raise, throw_bind]
    simp

/-- A run over ranges whose counters fit writes the rows of each range and ends with the
counts of all of them. -/
theorem settleRanges_of_fits {m : Type → Type} [Monad m] [LawfulMonad m]
    (write : Sink (ExceptT Fault m)) {ranges : List EventRange}
    (h : (countedAfter outputs total
      (ranges.flatMap EventRange.indices)).totals.counts.fits = true) :
    settleRanges outputs write total ranges =
      (do
        forM (ranges.map (rowsIn outputs)) write
        pure (countedAfter outputs total (ranges.flatMap EventRange.indices))) := by
  unfold settleRanges
  induction ranges generalizing total with
  | nil => simp [countedAfter_nil]
  | cons range rest ih =>
    rw [List.flatMap_cons, countedAfter_append] at h ⊢
    -- Counters only grow, so they fit after the first range as well.
    have hfirst := (fits_gathered outputs h).1
    rw [List.foldlM_cons, settleBatch_of_fits outputs write hfirst, bind_assoc]
    simp only [pure_bind, ih h, List.map_cons, List.forM_cons, bind_assoc]

/-- A run over ranges whose counters do not fit writes some of the rows and ends with a
fault. -/
theorem settleRanges_of_overflow {ranges : List EventRange}
    (htotal : total.totals.counts.fits = true)
    (h : ¬ (countedAfter outputs total
      (ranges.flatMap EventRange.indices)).totals.counts.fits = true) :
    ∃ written, written <+: ranges.map (rowsIn outputs) ∧
      ∀ (m : Type → Type) [Monad m] [LawfulMonad m] (write : Sink (ExceptT Fault m)),
        settleRanges outputs write total ranges =
          (do
            forM written write
            throwThe Fault .counterOverflow) := by
  unfold settleRanges
  induction ranges generalizing total with
  | nil =>
    rw [List.flatMap_nil, countedAfter_nil] at h
    exact absurd htotal h
  | cons range rest ih =>
    rw [List.flatMap_cons, countedAfter_append] at h
    by_cases hfirst : (countedAfter outputs total range.indices).totals.counts.fits = true
    · obtain ⟨written, hprefix, hrun⟩ := ih hfirst h
      refine ⟨rowsIn outputs range :: written, ?_, ?_⟩
      · rw [List.map_cons]
        exact List.prefix_cons_inj _ |>.mpr hprefix
      · intro m _ _ write
        rw [List.foldlM_cons, settleBatch_of_fits outputs write hfirst, bind_assoc]
        simp only [pure_bind, hrun, List.forM_cons, bind_assoc]
    · obtain ⟨written, hprefix, hrun⟩ := settleBatch_of_overflow outputs hfirst
      refine ⟨written, hprefix.trans ?_, ?_⟩
      · rw [List.map_cons]
        exact List.prefix_append [_] _
      · intro m _ _ write
        rw [List.foldlM_cons, hrun, bind_assoc]
        simp only [throw_bind]

/-! ## All ranges of a split -/

variable {n : Nat} {ranges : List EventRange} (hsplit : Consecutive 0 n ranges)

include hsplit

theorem countedAfter_split :
    countedAfter outputs .empty (ranges.flatMap EventRange.indices) =
      ⟨(gathered outputs (List.range n)).totals, .empty⟩ := by
  rw [indices_of_split hsplit, countedAfter_empty]

/-- The counters of each range fit if those of all ranges do. -/
theorem fits_of_mem_split {range : EventRange}
    (h : (gathered outputs (List.range n)).totals.counts.fits = true) (hrange : range ∈ ranges) :
    (gathered outputs range.indices).totals.counts.fits = true := by
  obtain ⟨before, after, rfl⟩ := List.append_of_mem hrange
  rw [← indices_of_split hsplit, List.flatMap_append, List.flatMap_cons, gathered_append,
    gathered_append] at h
  exact (EventCounts.fits_of_fits_add (EventCounts.fits_of_fits_add h).2).1

theorem settleRanges_of_split {m : Type → Type} [Monad m] [LawfulMonad m]
    (write : Sink (ExceptT Fault m))
    (h : (gathered outputs (List.range n)).totals.counts.fits = true) :
    settleRanges outputs write .empty ranges =
      (do
        forM (ranges.map (rowsIn outputs)) write
        pure ⟨(gathered outputs (List.range n)).totals, .empty⟩) := by
  have hsum := countedAfter_split outputs hsplit
  rw [settleRanges_of_fits outputs write (by rw [hsum]; exact h), hsum]

theorem settleRanges_of_split_overflow
    (h : ¬ (gathered outputs (List.range n)).totals.counts.fits = true) :
    ∃ written, written <+: ranges.map (rowsIn outputs) ∧
      ∀ (m : Type → Type) [Monad m] [LawfulMonad m] (write : Sink (ExceptT Fault m)),
        settleRanges outputs write .empty ranges =
          (do
            forM written write
            throwThe Fault .counterOverflow) := by
  have hsum := countedAfter_split outputs hsplit
  exact settleRanges_of_overflow outputs rfl (by rw [hsum]; exact h)

end

/-! ## What a run returns -/

/-- All rows were taken out, so the run can be closed. -/
def AllWritten (total : RunAccumulator) : Prop := total.rows = .empty

theorem allWritten_empty : AllWritten .empty := rfl

theorem finalize_of_allWritten {total : RunAccumulator} (h : AllWritten total)
    (elapsed : Duration) : total.finalize elapsed = .ok ⟨total.totals, elapsed⟩ := by
  unfold AllWritten at h
  unfold RunAccumulator.finalize
  rw [h]
  rfl

section

variable {m : Type → Type} [Monad m] [LawfulMonad m]

/-- Settling a result leaves no row behind. -/
theorem onlyReturns_settle (write : Sink (ExceptT Fault m)) {total : RunAccumulator}
    (htotal : AllWritten total) (result : RunAccumulator) :
    OnlyReturns AllWritten (settle write total result) := by
  unfold settle
  refine onlyReturns_bind (onlyReturns_true _) fun _ _ => onlyReturns_raise ?_
  intro merged hmerged
  unfold RunAccumulator.takeRows RunAccumulator.merge RunAccumulator.checked at hmerged
  unfold AllWritten at htotal ⊢
  split at hmerged
  · cases hmerged
    simp [RunAccumulator.append, EmittedRows.append, EmittedRows.empty, htotal]
  · cases hmerged

theorem onlyReturns_sequential (n : Nat) (kernel : Kernel (ExceptT Fault m))
    (write : Sink (ExceptT Fault m)) :
    OnlyReturns AllWritten (sequential n kernel write) := by
  unfold sequential
  split
  · exact onlyReturns_throw _ _
  · rw [stepThrough_eq_foldlM]
    refine onlyReturns_foldlM ?_ allWritten_empty
    intro total htotal index _
    unfold processBatch
    refine onlyReturns_bind (onlyReturns_true _) fun batch _ => ?_
    refine onlyReturns_bind (onlyReturns_true _) fun result _ => ?_
    exact onlyReturns_settle write htotal result

theorem onlyReturns_threaded (workers : Workers) (n : Nat) (kernel : Kernel (ExceptT Fault m))
    (write : Sink (ExceptT Fault m)) :
    OnlyReturns AllWritten (threaded workers n kernel write) := by
  unfold threaded
  split
  · exact onlyReturns_throw _ _
  · refine onlyReturns_bind (onlyReturns_true _) fun _ _ => ?_
    rw [stepThrough_eq_foldlM]
    refine onlyReturns_foldlM ?_ allWritten_empty
    intro total htotal index _
    unfold runWave settleWave
    refine onlyReturns_bind (onlyReturns_true _) fun wave _ => ?_
    refine onlyReturns_bind (onlyReturns_true _) fun slots _ => ?_
    refine onlyReturns_foldlM ?_ htotal
    intro total htotal slot _
    refine onlyReturns_bind (onlyReturns_true _) fun result _ => ?_
    exact onlyReturns_settle write htotal result

end

/-! ## The batches of a run -/

/-- The batches that a run processes split its events. -/
theorem consecutive_batchesOf (n : Nat) : Consecutive 0 n (batchesOf n) := by
  -- A batch begins where the one before it stops, if that is not the end.
  suffices hrest : ∀ count first, first + count = batchCount n →
      Consecutive (min (first * batchSize) n) n
        ((List.range' first count).map (batchOf n)) by
    have hall := hrest (batchCount n) 0 (Nat.zero_add _)
    rw [Nat.zero_mul, Nat.zero_min, ← List.range_eq_range'] at hall
    exact hall
  intro count
  induction count with
  | zero =>
    intro first hcount
    have hend : n ≤ first * batchSize := by
      unfold batchCount batchSize at *
      omega
    exact Nat.min_eq_right hend
  | succ count ih =>
    intro first hcount
    have hstart : first * batchSize < n := by
      unfold batchCount batchSize at *
      omega
    have hnext := ih (first + 1) (by omega)
    rw [Nat.succ_mul] at hnext
    rw [List.range'_succ, List.map_cons, Nat.min_eq_left (Nat.le_of_lt hstart)]
    refine ⟨rfl, ?_, hnext⟩
    unfold batchOf
    dsimp only
    omega

theorem stop_le_of_mem_batchesOf {n : Nat} {range : EventRange} (h : range ∈ batchesOf n) :
    range.stop ≤ n := by
  unfold batchesOf at h
  obtain ⟨index, _, rfl⟩ := List.mem_map.mp h
  exact Nat.min_le_right _ _

section

variable {m : Type → Type} [Monad m] [LawfulMonad m]

/-- A run whose last batch cannot be made returns nothing. -/
theorem onlyReturns_sequential_of_unmade {n : Nat} (hunmade : checkBatches n ≠ .ok ())
    (P : RunAccumulator → Prop) (kernel : Kernel (ExceptT Fault m))
    (write : Sink (ExceptT Fault m)) : OnlyReturns P (sequential n kernel write) := by
  unfold sequential
  split
  · exact onlyReturns_throw _ _
  · rename_i hevents
    rw [Ne, checkBatches_eq_ok_iff] at hunmade
    -- However the batches before it end, the last one stops the run.
    obtain ⟨last, hlast⟩ : ∃ last, batchCount n = last + 1 := by
      refine ⟨batchCount n - 1, ?_⟩
      unfold batchCount batchSize
      omega
    have hbatch : batchAt n last = .error .counterOverflow := by
      unfold batchAt
      rw [hlast, Nat.succ_mul] at hunmade
      exact if_neg hunmade
    rw [stepThrough_eq_foldlM, hlast, List.range'_1_concat, List.foldlM_append]
    refine onlyReturns_bind (onlyReturns_true _) fun total _ => ?_
    rw [List.foldlM_cons, Nat.zero_add]
    refine onlyReturns_bind (Q := fun _ => False) ?_ fun _ h => h.elim
    unfold processBatch
    rw [hbatch]
    exact onlyReturns_bind (onlyReturns_throw (fun _ => False) _) fun _ h => h.elim

section

variable (outputs : Nat → EventOutput) {n : Nat} {kernel : Kernel (ExceptT Fault m)}
  (hkernel : ∀ range, range.stop ≤ n → kernel range = raise (integrateRange outputs range))
  (write : Sink (ExceptT Fault m))

include hkernel

/-- A run on one thread goes through its batches. -/
theorem sequential_eq_settleRanges (hmade : checkBatches n = .ok ()) (hevents : 0 < n) :
    sequential n kernel write = settleRanges outputs write .empty (batchesOf n) := by
  rw [sequential_eq hmade write kernel hevents]
  apply foldlM_congr
  intro total range hrange
  unfold settleBatch
  rw [hkernel range (stop_le_of_mem_batchesOf hrange)]

/-- A run that integrates the outputs of events returns what they add up to. -/
theorem onlyReturns_gathered :
    OnlyReturns (fun total => total = ⟨(gathered outputs (List.range n)).totals, .empty⟩)
      (sequential n kernel write) := by
  by_cases hmade : checkBatches n = .ok ()
  · rcases Nat.eq_zero_or_pos n with rfl | hevents
    · exact onlyReturns_throw _ _
    · rw [sequential_eq_settleRanges outputs hkernel write hmade hevents]
      by_cases hfits : (gathered outputs (List.range n)).totals.counts.fits = true
      · rw [settleRanges_of_split outputs (consecutive_batchesOf n) write hfits]
        exact onlyReturns_bind (onlyReturns_true _) fun _ _ => onlyReturns_pure rfl
      · obtain ⟨written, _, hrun⟩ :=
          settleRanges_of_split_overflow outputs (consecutive_batchesOf n) hfits
        rw [hrun]
        exact onlyReturns_bind (onlyReturns_true _) fun _ _ => onlyReturns_throw _ _
  · exact onlyReturns_sequential_of_unmade hmade _ kernel write

/-- A run whose counters fit writes the rows of its batches and returns what its events add
up to, on one thread and on many. -/
theorem run_of_fits (hmade : checkBatches n = .ok ()) (hevents : 0 < n)
    (hfits : (gathered outputs (List.range n)).totals.counts.fits = true) {workers : Workers}
    (hfair : workers.Fair) :
    ∀ run ∈ [sequential n kernel write, threaded workers n kernel write],
      run =
        (do
          forM ((batchesOf n).map (rowsIn outputs)) write
          pure ⟨(gathered outputs (List.range n)).totals, .empty⟩) := by
  have hsequential : sequential n kernel write =
      (do
        forM ((batchesOf n).map (rowsIn outputs)) write
        pure ⟨(gathered outputs (List.range n)).totals, .empty⟩) := by
    rw [sequential_eq_settleRanges outputs hkernel write hmade hevents,
      settleRanges_of_split outputs (consecutive_batchesOf n) write hfits]
  -- The counters of each batch fit, so no batch fails on its own.
  have hpure : ∀ batch ∈ batchesOf n,
      kernel batch = pure (gathered outputs batch.indices) := by
    intro batch hbatch
    rw [hkernel batch (stop_le_of_mem_batchesOf hbatch), integrateRange_eq,
      show (gathered outputs batch.indices).checked = .ok _ from
        if_pos (fits_of_mem_split outputs (consecutive_batchesOf n) hfits hbatch), raise_ok]
  intro run hrun
  rcases List.mem_pair.mp hrun with rfl | rfl
  · exact hsequential
  · rw [threaded_congr hmade write workers hpure,
      threaded_eq_sequential (fun batch => gathered outputs batch.indices) write hfair hmade,
      ← sequential_congr hmade write hevents hpure, hsequential]

end

end

/-! ## Batching -/

theorem range_eq_indices (n : Nat) : (⟨0, n⟩ : EventRange).indices = List.range n := by
  rw [EventRange.indices_eq, List.range_eq_range']
  rfl

/-- The rows of consecutive ranges are, file by file, the rows of all their events. -/
theorem flatMap_rowsIn (outputs : Nat → EventOutput) {α : Type} (file : EmittedRows → List α)
    (hempty : file .empty = []) (happend : ∀ a b, file (a.append b) = file a ++ file b)
    (ranges : List EventRange) :
    (ranges.map (rowsIn outputs)).flatMap file =
      file (gathered outputs (ranges.flatMap EventRange.indices)).rows := by
  induction ranges with
  | nil => exact hempty.symm
  | cons range rest ih =>
    rw [List.map_cons, List.flatMap_cons, ih, List.flatMap_cons, gathered_append]
    exact (happend _ _).symm

/-- Batching is invisible in the results. However the events are split into ranges, the run
counts what one accumulator counts and writes the rows of the events in their order, or
ends with the same fault. No run returns rows, so closing it succeeds. -/
theorem batching_is_invisible (outputs : Nat → EventOutput) {n : Nat} {ranges : List EventRange}
    (hsplit : Consecutive 0 n ranges) :
    integrateRange outputs ⟨0, n⟩ = (gathered outputs (List.range n)).checked ∧
    (gathered outputs (List.range n)).totals =
      { (gathered outputs (acceptedAmong outputs (List.range n))).totals with
        processedEvents := n
        rejectedEvents := n - (acceptedAmong outputs (List.range n)).length } ∧
    (∀ whole, integrateRange outputs ⟨0, n⟩ = .ok whole →
      ∀ (m : Type → Type) [Monad m] [LawfulMonad m] (write : Sink (ExceptT Fault m)),
        settleRanges outputs write .empty ranges =
          (do
            forM (ranges.map (rowsIn outputs)) write
            pure ⟨whole.totals, .empty⟩)) ∧
    (∀ fault, integrateRange outputs ⟨0, n⟩ = .error fault →
      ∃ written, written <+: ranges.map (rowsIn outputs) ∧
        ∀ (m : Type → Type) [Monad m] [LawfulMonad m] (write : Sink (ExceptT Fault m)),
          settleRanges outputs write .empty ranges =
            (do
              forM written write
              throwThe Fault fault)) ∧
    (ranges.map (rowsIn outputs)).flatMap (·.twoProng) =
      (acceptedAmong outputs (List.range n)).flatMap
        (fun i => (outputs i).twoProng.map (i, ·)) ∧
    (ranges.map (rowsIn outputs)).flatMap (·.threeProng) =
      (acceptedAmong outputs (List.range n)).flatMap
        (fun i => (outputs i).threeProng.map (i, ·)) ∧
    (ranges.map (rowsIn outputs)).flatMap (·.cascades) =
      (acceptedAmong outputs (List.range n)).flatMap
        (fun i => (outputs i).cascades.map (i, ·)) ∧
    ∀ (m : Type → Type) [Monad m] [LawfulMonad m] (kernel : Kernel (ExceptT Fault m))
      (write : Sink (ExceptT Fault m)) (workers : Workers),
      ∀ run ∈ [sequential n kernel write, threaded workers n kernel write],
        OnlyReturns (fun total => total.rows = .empty) run ∧
        ∀ elapsed,
          (do
            let total ← run
            raise (total.finalize elapsed)) =
          (do
            let total ← run
            pure ⟨total.totals, elapsed⟩) := by
  have hindices := indices_of_split hsplit
  have hwhole : integrateRange outputs ⟨0, n⟩ = (gathered outputs (List.range n)).checked := by
    rw [integrateRange_eq, range_eq_indices]
  refine ⟨hwhole, ?_, ?_, ?_, ?_, ?_, ?_, ?_⟩
  · have htotals := totals_gathered outputs (List.range n)
    rwa [List.length_range] at htotals
  · intro whole hok m _ _ write
    rw [hwhole] at hok
    unfold RunAccumulator.checked at hok
    split at hok
    · rename_i hfits
      cases hok
      exact settleRanges_of_split outputs hsplit write hfits
    · cases hok
  · intro fault herror
    rw [hwhole] at herror
    unfold RunAccumulator.checked at herror
    split at herror
    · cases herror
    · rename_i hfits
      cases herror
      exact settleRanges_of_split_overflow outputs hsplit hfits
  · rw [flatMap_rowsIn outputs (·.twoProng) rfl (fun _ _ => rfl), hindices]
    rfl
  · rw [flatMap_rowsIn outputs (·.threeProng) rfl (fun _ _ => rfl), hindices]
    rfl
  · rw [flatMap_rowsIn outputs (·.cascades) rfl (fun _ _ => rfl), hindices]
    rfl
  · intro m _ _ kernel write workers run hrun
    have hwritten : OnlyReturns AllWritten run := by
      rcases List.mem_pair.mp hrun with rfl | rfl
      · exact onlyReturns_sequential n kernel write
      · exact onlyReturns_threaded workers n kernel write
    refine ⟨hwritten, fun elapsed => hwritten _ _ _ fun total htotal => ?_⟩
    rw [finalize_of_allWritten htotal, raise_ok]

namespace Sample

def row (i : Nat) : CandidateRow := ⟨[⟨UInt64.ofNat i⟩], .empty, none⟩

/-- One row in each event, of which the second one is rejected. -/
def outputs (i : Nat) : EventOutput :=
  { EventOutput.empty (i ≠ 1) with
    twoProng := [row i]
    counts := { EventCounts.zero with taggedTracks := 2 } }

/-- A sink that keeps the rows of each call. -/
def record (rows : EmittedRows) : ExceptT Fault (StateM (List EmittedRows)) Unit :=
  modify (· ++ [rows])

end Sample

open Sample in
theorem three_events_are_searched_in_two_ranges :
    Consecutive 0 3 [⟨0, 1⟩, ⟨1, 3⟩] ∧
    (settleRanges outputs record .empty [⟨0, 1⟩, ⟨1, 3⟩]).run.run [] =
      (.ok ⟨{ RunTotals.zero with
          processedEvents := 3
          rejectedEvents := 1
          counts := { EventCounts.zero with taggedTracks := 4 } }, .empty⟩,
        [⟨[(0, row 0)], [], []⟩, ⟨[(2, row 2)], [], []⟩]) := by
  have hsplit : Consecutive 0 3 [⟨0, 1⟩, ⟨1, 3⟩] :=
    ⟨rfl, by decide, rfl, by decide, rfl⟩
  obtain ⟨hwhole, _, hrun, _⟩ := batching_is_invisible outputs hsplit
  refine ⟨hsplit, ?_⟩
  rw [hrun _ hwhole]
  -- No event counts a candidate, so both tallies stay at zero.
  have htallies : HypothesisTally.zero.add (HypothesisTally.zero.add .zero) = .zero := by
    rw [HypothesisTally.zero_add, HypothesisTally.zero_add]
  have htotals : (gathered outputs (List.range 3)).totals =
      { RunTotals.zero with
        processedEvents := 3
        rejectedEvents := 1
        counts := { EventCounts.zero with taggedTracks := 4 }
        twoProng := HypothesisTally.zero.add (HypothesisTally.zero.add .zero)
        threeProng := HypothesisTally.zero.add (HypothesisTally.zero.add .zero) } := rfl
  rw [htallies] at htotals
  rw [htotals]
  rfl

end DecaySearch
