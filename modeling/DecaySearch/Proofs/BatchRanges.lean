-- The batches of a run partition its events. Every batch but the last one is full, whatever the
-- number of events, and there are batches as long as the end of the last one fits into a word.
import Mathlib.Data.List.Range
import DecaySearch.Proofs.Batching
import DecaySearch.Proofs.FirstPlaces

namespace DecaySearch.Schedule

/-- Ranges that hold the events of a run, each event once and in order. Only the last range may
be short. -/
structure Partition (numEvents : Nat) (ranges : List EventRange) : Prop where
  begins : ranges.head?.map (·.start) = some 0
  adjoins : ranges.IsChain fun range next => next.start = range.stop
  ends : ranges.getLast?.map (·.stop) = some numEvents
  nonempty : ∀ range ∈ ranges, range.start < range.stop
  bounded : ∀ range ∈ ranges, range.indices.length ≤ 1000
  full : ∀ range ∈ ranges.dropLast, range.indices.length = 1000
  covers : ranges.flatMap EventRange.indices = List.range numEvents

variable {numEvents index : Nat}

/-! ## One batch -/

/-- A batch begins before the last event. -/
theorem start_lt_of_lt_batchCount (hindex : index < batchCount numEvents) :
    index * batchSize < numEvents := by
  unfold batchCount batchSize at *
  omega

/-- A batch that is not the last one stops where the next one begins. -/
theorem stop_batchOf (hnext : index + 1 < batchCount numEvents) :
    (batchOf numEvents index).stop = (index + 1) * batchSize := by
  have hstart := start_lt_of_lt_batchCount hnext
  unfold batchOf
  dsimp only
  rw [Nat.succ_mul] at hstart ⊢
  exact Nat.min_eq_left (Nat.le_of_lt hstart)

theorem length_indices_batchOf :
    (batchOf numEvents index).indices.length =
      min batchSize (numEvents - index * batchSize) := by
  rw [EventRange.indices_eq, List.length_range']
  unfold batchOf
  dsimp only
  omega

/-! ## All batches -/

theorem batchCount_pos (hevents : 0 < numEvents) : 0 < batchCount numEvents := by
  unfold batchCount batchSize
  omega

/-- The last batch stops behind the last event. -/
theorem stop_batchOf_last (hevents : 0 < numEvents) :
    (batchOf numEvents (batchCount numEvents - 1)).stop = numEvents := by
  apply Nat.min_eq_right
  unfold batchCount batchSize
  omega

theorem partition_batchesOf (hevents : 0 < numEvents) :
    Partition numEvents (batchesOf numEvents) where
  begins := by
    unfold batchesOf
    rw [List.head?_map, List.head?_range, if_neg (batchCount_pos hevents).ne']
    exact congrArg some (Nat.zero_mul batchSize)
  adjoins := by
    unfold batchesOf
    rw [List.isChain_map, List.isChain_range]
    exact fun index hindex => (stop_batchOf (by omega)).symm
  ends := by
    unfold batchesOf
    rw [List.getLast?_map, List.getLast?_range, if_neg (batchCount_pos hevents).ne']
    exact congrArg some (stop_batchOf_last hevents)
  nonempty := by
    unfold batchesOf
    rw [List.forall_mem_map]
    intro index hindex
    have hstart := start_lt_of_lt_batchCount (List.mem_range.mp hindex)
    exact Nat.lt_min.mpr ⟨Nat.lt_add_of_pos_right (by decide), hstart⟩
  bounded := by
    unfold batchesOf
    rw [List.forall_mem_map]
    intro index _
    rw [length_indices_batchOf]
    exact Nat.min_le_left _ _
  full := by
    unfold batchesOf
    rw [← List.map_dropLast, List.forall_mem_map]
    intro index hindex
    rw [List.dropLast_eq_take, List.length_range, List.take_range, List.mem_range] at hindex
    have hstart : (index + 1) * batchSize < numEvents := start_lt_of_lt_batchCount (by omega)
    rw [length_indices_batchOf]
    apply Nat.min_eq_left
    rw [Nat.succ_mul] at hstart
    omega
  covers := indices_of_split (consecutive_batchesOf numEvents)

/-- When the end of the last batch fits into a word, the ends of all of them do. -/
theorem batches_eq_ok (hfits : checkBatches numEvents = .ok ()) :
    batches numEvents = .ok (batchesOf numEvents) :=
  mapM_eq_ok_map _ fun _ hindex => batchAt_eq hfits (List.mem_range.mp hindex)

/-- Batches that could be made all have ends that fit into a word. -/
theorem checkBatches_of_batches (hevents : 0 < numEvents) {ranges : List EventRange}
    (h : batches numEvents = .ok ranges) : checkBatches numEvents = .ok () := by
  have hcount := batchCount_pos hevents
  have hlast : batchCount numEvents - 1 ∈ List.range (batchCount numEvents) :=
    List.mem_range.mpr (by omega)
  obtain ⟨range, _, hrange⟩ := exists_mem_of_forall₂ (mapM_eq_ok_iff.mp h) hlast
  rw [checkBatches_eq_ok_iff]
  unfold batchAt at hrange
  dsimp only at hrange
  split at hrange
  · rename_i hend
    rwa [← Nat.succ_mul, Nat.succ_eq_add_one, Nat.sub_add_cancel hcount] at hend
  · cases hrange

/-- The batches are those that a run makes one after the other. -/
theorem batchAt_of_batches {ranges : List EventRange} (h : batches numEvents = .ok ranges) :
    ranges.length = batchCount numEvents ∧
      ∀ index range, ranges[index]? = some range → batchAt numEvents index = .ok range := by
  have hmade := mapM_eq_ok_iff.mp h
  refine ⟨hmade.length_eq.symm.trans List.length_range, fun index range hrange => ?_⟩
  obtain ⟨i, hi, hbatch⟩ := exists_of_forall₂ hmade.flip hrange
  obtain ⟨_, rfl⟩ := List.getElem?_eq_some_iff.mp hi
  rwa [List.getElem_range] at hbatch

/-- There are batches exactly if the first multiple of 1000 that is not below the number of
events fits into a word. They partition the events, and a run makes them in their order. -/
theorem batches_partition_the_events (hevents : 0 < numEvents) :
    ((∃ ranges, batches numEvents = .ok ranges) ↔ (numEvents + 999) / 1000 * 1000 < 2 ^ 64) ∧
      ∀ ranges, batches numEvents = .ok ranges →
        Partition numEvents ranges ∧ ranges.length = batchCount numEvents ∧
          ∀ index range, ranges[index]? = some range → batchAt numEvents index = .ok range := by
  have hbound : checkBatches numEvents = .ok () ↔ (numEvents + 999) / 1000 * 1000 < 2 ^ 64 :=
    checkBatches_eq_ok_iff numEvents
  rw [← hbound]
  refine ⟨⟨?_, ?_⟩, fun ranges hranges => ⟨?_, batchAt_of_batches hranges⟩⟩
  · rintro ⟨ranges, hranges⟩
    exact checkBatches_of_batches hevents hranges
  · intro hfits
    exact ⟨_, batches_eq_ok hfits⟩
  · have hmade := batches_eq_ok (checkBatches_of_batches hevents hranges)
    rw [hranges] at hmade
    cases hmade
    exact partition_batchesOf hevents

/-- Three batches hold 2003 events. -/
theorem three_events_are_left_for_the_last_batch :
    0 < 2003 ∧ ∃ ranges, batches 2003 = .ok ranges ∧ Partition 2003 ranges ∧
      ranges = [⟨0, 1000⟩, ⟨1000, 2000⟩, ⟨2000, 2003⟩] := by
  have hpartition := batches_partition_the_events (show 0 < 2003 by decide)
  obtain ⟨ranges, hranges⟩ := hpartition.1.mpr (by decide)
  refine ⟨by decide, ranges, hranges, (hpartition.2 ranges hranges).1, ?_⟩
  have hmade : batches 2003 = .ok [⟨0, 1000⟩, ⟨1000, 2000⟩, ⟨2000, 2003⟩] := by decide
  exact Except.ok.inj (hranges.symm.trans hmade)

end DecaySearch.Schedule
