-- What an event comes to in one arity. A pair makes no row of triplets and counts for none of
-- their hypotheses, nor does a triplet for pairs, so each arity can be looked at by itself.
import DecaySearch.Proofs.Independence

namespace DecaySearch

namespace Combination

/-- The combinations of an arity. -/
def among (arity : Arity) (combinations : List (List Track)) : List (List Track) :=
  combinations.filter (·.length = arity.prongs)

theorem length_of_mem_pairs {s : Scope} {p n : TaggedTrack} {prongs : List Track}
    (h : prongs ∈ pairs s p n) : prongs.length = 2 := by
  obtain ⟨_, _, rfl⟩ := (mem_pairs_iff s p n prongs).mp h
  rfl

theorem length_of_mem_triplets {s : Scope} {p n : TaggedTrack} {laterP laterN : List TaggedTrack}
    {prongs : List Track} (h : prongs ∈ triplets s p n laterP laterN) : prongs.length = 3 := by
  obtain ⟨_, _, ⟨q, _, rfl⟩ | ⟨q, _, rfl⟩⟩ :=
    (mem_triplets_iff s p n laterP laterN prongs).mp h
  · rfl
  · rfl

/-- The part of the combinations of an arity that a positive and a negative track begin. -/
def begunAs (arity : Arity) (s : Scope) (p n : TaggedTrack) (laterP laterN : List TaggedTrack) :
    List (List Track) :=
  match arity with
  | .twoProng => pairs s p n
  | .threeProng => triplets s p n laterP laterN

theorem among_begun (arity : Arity) (s : Scope) (p n : TaggedTrack)
    (laterP laterN : List TaggedTrack) :
    among arity (begun s p n laterP laterN) = begunAs arity s p n laterP laterN := by
  unfold among begun
  rw [List.filter_append]
  cases arity with
  | twoProng =>
    rw [List.filter_eq_self.mpr fun prongs h => by simp [length_of_mem_pairs h, Arity.prongs],
      List.filter_eq_nil_iff.mpr fun prongs h => by simp [length_of_mem_triplets h, Arity.prongs],
      List.append_nil]
    rfl
  | threeProng =>
    rw [List.filter_eq_nil_iff.mpr fun prongs h => by simp [length_of_mem_pairs h, Arity.prongs],
      List.filter_eq_self.mpr fun prongs h => by simp [length_of_mem_triplets h, Arity.prongs],
      List.nil_append]
    rfl

theorem among_all (arity : Arity) (s : Scope) (ps ns : List TaggedTrack) :
    among arity (all s ps ns) =
      (withLater ps).flatMap fun (p, laterP) =>
        (withLater ns).flatMap fun (n, laterN) => begunAs arity s p n laterP laterN := by
  rw [all_eq]
  unfold among
  simp only [List.filter_flatMap]
  congr 1
  funext ⟨p, laterP⟩
  congr 1
  funext ⟨n, laterN⟩
  exact among_begun arity s p n laterP laterN

end Combination

namespace Search

/-- A formed combination has the number of tracks of its arity. -/
theorem length_eq_prongs_iff {s : Search} {event : Event} {prongs : List Track}
    (h : prongs ∈ s.formed event) (arity : Arity) :
    prongs.length = arity.prongs ↔ Combination.arityOf prongs = arity := by
  rw [Arity.length_of_follows (follows_of_mem_formed h)]
  cases Combination.arityOf prongs <;> cases arity <;> simp [Arity.prongs]

theorem flatMap_eq_foldr {α β : Type} (xs : List α) (f : α → List β) :
    xs.flatMap f = xs.foldr (fun x ys => f x ++ ys) [] := by
  induction xs with
  | nil => rfl
  | cons x rest ih => rw [List.flatMap_cons, List.foldr_cons, ih]

open Combination in
/-- Evaluations of other arities can be left out where they add nothing. -/
theorem foldr_evaluations {M : Type} {s : Search} (event : Event) (arity : Arity) {unit : M}
    (step : Evaluation → M → M) (hothers : ∀ other, other ≠ arity → ∀ prongs acc,
      step (s.outcome other event.primaryVertex prongs) acc = acc) :
    (s.evaluations event).foldr step unit =
      (among arity (s.formed event)).foldr
        (fun prongs => step (s.outcome arity event.primaryVertex prongs)) unit := by
  unfold evaluations among
  rw [List.foldr_map, List.foldr_filter]
  refine List.foldr_ext _ _ _ fun prongs hprongs acc => ?_
  by_cases harity : arityOf prongs = arity
  · rw [if_pos (by simpa using (length_eq_prongs_iff hprongs arity).mpr harity), harity]
  · rw [hothers _ harity, if_neg]
    simpa using mt (length_eq_prongs_iff hprongs arity).mp harity

section

variable {s : Search} (hs : s.WellFormed)
include hs

/-- A combination counts for no hypothesis of another arity. -/
theorem tally_outcome_of_ne {a other : Arity} (h : a ≠ other) (primary : Position)
    (prongs : List Track) : (s.outcome a primary prongs).tally other = .zero := by
  unfold Evaluation.tally Evaluation.acceptedAs
  rw [arity_outcome, hs.hypotheses.arities, decide_eq_false h, Bool.and_false]
  rfl

open Combination in
/-- The rows of an arity come from the combinations of that arity, in their order. -/
theorem rows_report_among (event : Event) (arity : Arity) :
    (s.report event).output.rows arity =
      (among arity (s.formed event)).flatMap fun prongs =>
        (s.outcome arity event.primaryVertex prongs).rows s.mode arity := by
  rw [rows_report, flatMap_eq_foldr, flatMap_eq_foldr]
  refine foldr_evaluations event arity _ fun other hother prongs rows => ?_
  rw [rows_outcome_of_ne hs hother, List.nil_append]

open Combination in
/-- The tally of an arity is the sum over the combinations of that arity. -/
theorem tally_report_among (event : Event) (arity : Arity) :
    (s.report event).output.tally arity =
      ((among arity (s.formed event)).map fun prongs =>
        (s.outcome arity event.primaryVertex prongs).tally arity).foldr .add .zero := by
  rw [tally_report, List.foldr_map, List.foldr_map]
  refine foldr_evaluations event arity _ fun other hother prongs tally => ?_
  rw [tally_outcome_of_ne hs hother, HypothesisTally.zero_add]

end

end Search

end DecaySearch
