-- How accumulators add up. Accumulators are a monoid, counters that once do not fit
-- never fit again, and so the events of a run can be gathered in one go.
import Mathlib.Data.List.Basic
import DecaySearch.EventSource

namespace DecaySearch

/-! ## Sums of counts -/

namespace TrackTally

theorem add_assoc (a b c : TrackTally) : (a.add b).add c = a.add (b.add c) := by
  apply ext_get
  · intro role
    simp only [selected_add, Nat.add_assoc]
  · intro role stage
    simp only [rejected_add, Nat.add_assoc]

theorem add_comm (a b : TrackTally) : a.add b = b.add a := by
  apply ext_get
  · intro role
    rw [selected_add, selected_add, Nat.add_comm]
  · intro role stage
    rw [rejected_add, rejected_add, Nat.add_comm]

theorem zero_add (a : TrackTally) : zero.add a = a := by
  apply ext_get
  · intro role
    rw [selected_add, selected_zero, Nat.zero_add]
  · intro role stage
    rw [rejected_add, rejected_zero, Nat.zero_add]

theorem add_zero (a : TrackTally) : a.add zero = a := by
  rw [add_comm, zero_add]

/-- The order in which verdicts are recorded does not matter. -/
instance : RightCommutative record where
  right_comm a v w := by
    unfold record
    rw [add_assoc, add_comm (ofVerdict v), ← add_assoc]

end TrackTally

namespace HypothesisCount

theorem add_assoc (a b c : HypothesisCount) : (a.add b).add c = a.add (b.add c) := by
  simp only [add, MatchCounts.add, Nat.add_assoc]

theorem add_comm (a b : HypothesisCount) : a.add b = b.add a := by
  simp only [add, MatchCounts.add, Nat.add_comm]

theorem zero_add (a : HypothesisCount) : zero.add a = a := by
  simp only [add, zero, MatchCounts.add, MatchCounts.zero, Nat.zero_add]

end HypothesisCount

namespace HypothesisTally

theorem add_assoc (a b c : HypothesisTally) : (a.add b).add c = a.add (b.add c) := by
  unfold add
  congr 1
  ext i : 1
  simp only [Vector.getElem_zipWith, HypothesisCount.add_assoc]

theorem add_comm (a b : HypothesisTally) : a.add b = b.add a := by
  unfold add
  congr 1
  ext i : 1
  simp only [Vector.getElem_zipWith, HypothesisCount.add_comm a.counts[i]]

theorem zero_add (a : HypothesisTally) : zero.add a = a := by
  cases a
  unfold add zero
  congr 1
  ext i : 1
  simp only [Vector.getElem_zipWith, Vector.getElem_replicate, HypothesisCount.zero_add]

theorem add_zero (a : HypothesisTally) : a.add zero = a := by
  rw [add_comm, zero_add]

/-- The order in which tallies are added up does not matter. -/
instance : LeftCommutative add where
  left_comm a b c := by rw [← add_assoc, add_comm a b, add_assoc]

end HypothesisTally

namespace EventCounts

theorem add_assoc (a b c : EventCounts) : (a.add b).add c = a.add (b.add c) := by
  simp only [add, Nat.add_assoc]

theorem zero_add (a : EventCounts) : zero.add a = a := by
  simp only [add, zero, Nat.zero_add]

theorem add_zero (a : EventCounts) : a.add zero = a := by
  simp only [add, zero, Nat.add_zero]

/-- Counters only grow, so the parts of a sum that fits fit as well. -/
theorem fits_of_fits_add {a b : EventCounts} (h : (a.add b).fits = true) :
    a.fits = true ∧ b.fits = true := by
  simp only [fits, toList, add, List.all_cons, List.all_nil, Bool.and_eq_true,
    decide_eq_true_eq, and_true] at h ⊢
  omega

end EventCounts

namespace RunTotals

theorem add_assoc (a b c : RunTotals) : (a.add b).add c = a.add (b.add c) := by
  simp only [add, Nat.add_assoc, EventCounts.add_assoc, TrackTally.add_assoc,
    HypothesisTally.add_assoc]

theorem zero_add (a : RunTotals) : zero.add a = a := by
  simp only [add, zero, Nat.zero_add, EventCounts.zero_add, TrackTally.zero_add,
    HypothesisTally.zero_add]

theorem add_zero (a : RunTotals) : a.add zero = a := by
  simp only [add, zero, Nat.add_zero, EventCounts.add_zero, TrackTally.add_zero,
    HypothesisTally.add_zero]

end RunTotals

/-! ## Accumulators -/

namespace RunAccumulator

theorem append_assoc (a b c : RunAccumulator) : (a.append b).append c = a.append (b.append c) := by
  simp only [append, EmittedRows.append, RunTotals.add_assoc, List.append_assoc]

theorem empty_append (a : RunAccumulator) : empty.append a = a := by
  simp only [append, empty, EmittedRows.append, EmittedRows.empty, RunTotals.zero_add,
    List.nil_append]

theorem append_empty (a : RunAccumulator) : a.append empty = a := by
  simp only [append, empty, EmittedRows.append, EmittedRows.empty, RunTotals.add_zero,
    List.append_nil]

/-- Merging after a check is only checked at the end. -/
theorem checked_bind_merge (a b : RunAccumulator) :
    (a.checked >>= fun total => total.merge b) = (a.append b).checked := by
  by_cases ha : a.totals.counts.fits = true
  · unfold checked
    rw [if_pos ha]
    rfl
  · have hsum : ¬ (a.append b).totals.counts.fits = true := fun h =>
      ha (EventCounts.fits_of_fits_add h).1
    unfold checked
    rw [if_neg ha, if_neg hsum]
    rfl

end RunAccumulator

/-! ## Events of a run -/

section

variable (outputs : Nat → EventOutput)

/-- The events that were searched. -/
def acceptedAmong (indices : List Nat) : List Nat := indices.filter fun i => (outputs i).accepted

/-- What the outputs of some events add up to. Events that were rejected before the
search are only counted. Rows keep the order of the events, and each row has the index
of its event. -/
def gathered (indices : List Nat) : RunAccumulator where
  totals :=
    { processedEvents := indices.length
      rejectedEvents := indices.countP fun i => !(outputs i).accepted
      counts := ((acceptedAmong outputs indices).map fun i => (outputs i).counts).foldr .add .zero
      tracks := ((acceptedAmong outputs indices).map fun i => (outputs i).tracks).foldr .add .zero
      twoProng :=
        ((acceptedAmong outputs indices).map fun i => (outputs i).twoProngTally).foldr .add .zero
      threeProng :=
        ((acceptedAmong outputs indices).map fun i => (outputs i).threeProngTally).foldr .add
          .zero }
  rows :=
    { twoProng := (acceptedAmong outputs indices).flatMap fun i =>
        (outputs i).twoProng.map (i, ·)
      threeProng := (acceptedAmong outputs indices).flatMap fun i =>
        (outputs i).threeProng.map (i, ·)
      cascades := (acceptedAmong outputs indices).flatMap fun i =>
        (outputs i).cascades.map (i, ·) }

theorem gathered_cons (i : Nat) (rest : List Nat) :
    gathered outputs (i :: rest) =
      (RunAccumulator.ofEvent i (outputs i)).append (gathered outputs rest) := by
  cases haccepted : (outputs i).accepted with
  | true =>
    simp [gathered, acceptedAmong, haccepted, RunAccumulator.ofEvent, RunAccumulator.append,
      RunTotals.ofEvent, RunTotals.add, EmittedRows.ofEvent, EmittedRows.append, Nat.add_comm]
  | false =>
    simp [gathered, acceptedAmong, haccepted, RunAccumulator.ofEvent, RunAccumulator.append,
      RunTotals.ofEvent, RunTotals.add, RunTotals.zero, EmittedRows.empty, EmittedRows.append,
      EventCounts.zero_add, TrackTally.zero_add, HypothesisTally.zero_add, Nat.add_comm]

/-- Events in two parts add up to what the parts add up to. -/
theorem gathered_append (xs ys : List Nat) :
    gathered outputs (xs ++ ys) = (gathered outputs xs).append (gathered outputs ys) := by
  induction xs with
  | nil => exact (RunAccumulator.empty_append _).symm
  | cons i rest ih =>
    rw [List.cons_append, gathered_cons, gathered_cons, ih, RunAccumulator.append_assoc]

/-- Events that were rejected before the search add only to the events that are processed
and rejected. -/
theorem totals_gathered (indices : List Nat) :
    (gathered outputs indices).totals =
      { (gathered outputs (acceptedAmong outputs indices)).totals with
        processedEvents := indices.length
        rejectedEvents := indices.length - (acceptedAmong outputs indices).length } := by
  have hrejected : indices.countP (fun i => !(outputs i).accepted) =
      indices.length - (acceptedAmong outputs indices).length := by
    have hsplit := List.length_eq_countP_add_countP (fun i => (outputs i).accepted) (l := indices)
    simp only [Bool.not_eq_true, Bool.decide_eq_false] at hsplit
    unfold acceptedAmong
    rw [← List.countP_eq_length_filter]
    omega
  have hsame : acceptedAmong outputs (acceptedAmong outputs indices) =
      acceptedAmong outputs indices := by
    unfold acceptedAmong
    rw [List.filter_filter]
    simp only [Bool.and_self]
  unfold gathered
  rw [hsame, hrejected]

/-- Integrates the outputs of a range of events into one accumulator. -/
def integrateRange (range : EventRange) : Except Fault RunAccumulator :=
  range.indices.foldlM (fun total i => total.integrate i (outputs i)) .empty

theorem checked_bind_integrate (indices : List Nat) (total : RunAccumulator) :
    (total.checked >>= fun total =>
        indices.foldlM (fun total i => total.integrate i (outputs i)) total) =
      (total.append (gathered outputs indices)).checked := by
  induction indices generalizing total with
  | nil =>
    show (total.checked >>= pure) = (total.append .empty).checked
    rw [bind_pure, RunAccumulator.append_empty]
  | cons i rest ih =>
    have hstep := RunAccumulator.checked_bind_merge total (.ofEvent i (outputs i))
    simp only [List.foldlM_cons, RunAccumulator.integrate]
    rw [← bind_assoc, hstep, gathered_cons, ← RunAccumulator.append_assoc]
    exact ih (total.append (.ofEvent i (outputs i)))

/-- One accumulator holds what the events of the range add up to, unless a counter does
not fit. -/
theorem integrateRange_eq (range : EventRange) :
    integrateRange outputs range = (gathered outputs range.indices).checked := by
  have h := checked_bind_integrate outputs range.indices .empty
  rw [RunAccumulator.empty_append] at h
  exact h

/-- A search of a range integrates the outputs of its events. -/
theorem Search.processRange_eq {s : Search} {source : EventSource} {range : EventRange}
    (h : ∀ i ∈ range.indices, ∃ event report, source.event i = .ok event ∧
      s.process event = .ok report ∧ report.output = outputs i) :
    s.processRange source range = integrateRange outputs range := by
  unfold processRange integrateRange
  generalize RunAccumulator.empty = total
  generalize range.indices = indices at h ⊢
  induction indices generalizing total with
  | nil => rfl
  | cons i rest ih =>
    obtain ⟨event, report, hevent, hreport, houtput⟩ := h i List.mem_cons_self
    have hstep : s.integrate source total i = total.integrate i (outputs i) := by
      unfold integrate
      rw [hevent, ← houtput]
      simp only [bind, Except.bind, hreport]
    rw [List.foldlM_cons, List.foldlM_cons, hstep]
    congr 1
    funext total
    exact ih total fun i hi => h i (List.mem_cons_of_mem _ hi)

end

end DecaySearch
