-- The order in which an event lists its tracks and V0s is not looked at. Tracks are told apart
-- by their identities, a pair is one of a positive and a negative track wherever they stand,
-- and what is counted is a sum.
import DecaySearch.Proofs.CascadePairs
import DecaySearch.Proofs.Counters
import DecaySearch.Proofs.ReportsByArity

namespace DecaySearch

/-- Another event with the same tracks and V0s, in any order. -/
structure Event.Reordered (event other : Event) : Prop where
  primaryVertex : other.primaryVertex = event.primaryVertex
  accepted : other.accepted = event.accepted
  tracks : other.tracks.Perm event.tracks
  v0s : other.v0s.Perm event.v0s

/-! ## Pairs -/

namespace Combination

theorem map_fst_withLater {α : Type} (xs : List α) : (withLater xs).map (·.1) = xs := by
  induction xs with
  | nil => rfl
  | cons x rest ih => rw [withLater, List.map_cons, ih]

/-- A pair does not depend on the tracks behind those that form it. -/
theorem pairs_all (s : Scope) (ps ns : List TaggedTrack) :
    among .twoProng (all s ps ns) = ps.flatMap fun p => ns.flatMap fun n => pairs s p n := by
  have hns : ∀ p, ((withLater ns).flatMap fun x => pairs s p x.1) =
      ns.flatMap fun n => pairs s p n := by
    intro p
    conv_rhs => rw [← map_fst_withLater ns, List.flatMap_map]
  rw [among_all]
  conv_rhs => rw [← map_fst_withLater ps, List.flatMap_map]
  congr 1
  funext ⟨p, laterP⟩
  exact hns p

/-- Without triplets there are pairs only. -/
theorem among_all_of_pairs {s : Scope} (hpairs : s.threeProng = false)
    (ps ns : List TaggedTrack) : among .twoProng (all s ps ns) = all s ps ns := by
  have hno : ∀ t, s.allowsTriplet t ≠ true := by
    intro t
    unfold Scope.allowsTriplet
    rw [hpairs]
    simp
  refine List.filter_eq_self.mpr fun prongs hprongs => decide_eq_true ?_
  cases formed_of_mem_all hprongs with
  | pair => rfl
  | secondPositive _ _ _ _ hallows => exact absurd hallows.1 (hno _)
  | secondNegative _ _ _ _ hallows => exact absurd hallows.1 (hno _)

end Combination

/-! ## One event in two orders -/

namespace Event.Reordered

variable {event other : Event} (h : event.Reordered other)
include h

/-- Tracks with different identities are found wherever they stand. -/
theorem track?_eq (hids : (event.tracks.map (·.id)).Nodup) (id : TrackId) :
    other.track? id = event.track? id := by
  refine (List.find?_eq_find?_of_perm h.tracks.symm ?_).symm
  rintro a ⟨ha, hida⟩ b ⟨hb, hidb⟩
  simp only [decide_eq_true_eq] at hida hidb
  exact List.inj_on_of_nodup_map hids ha hb (hida.trans hidb.symm)

theorem selectV0_eq (hids : (event.tracks.map (·.id)).Nodup) (settings : CascadeSettings) :
    Cascade.selectV0 settings other = Cascade.selectV0 settings event := by
  funext v0
  unfold Cascade.selectV0
  simp only [h.track?_eq hids, h.primaryVertex]

variable (s : Search)

theorem signed_perm (sign : Sign) : (s.signed other sign).Perm (s.signed event sign) :=
  (h.tracks.filter _).map _

theorem bachelorsOf_perm : (s.bachelorsOf other).Perm (s.bachelorsOf event) := h.tracks.filter _

theorem verdicts_perm : ((s.tagged other).map (·.2)).Perm ((s.tagged event).map (·.2)) :=
  (h.tracks.map _).map _

/-- The same pairs are formed. -/
theorem pairs_perm : (Combination.among .twoProng (s.formed other)).Perm
    (Combination.among .twoProng (s.formed event)) := by
  unfold Search.formed
  rw [Combination.pairs_all, Combination.pairs_all]
  exact (h.signed_perm s .positive).flatMap fun p _ =>
    (h.signed_perm s .negative).flatMap_right _

/-- The same pairs of bachelors and V0s are fitted. -/
theorem cascadePairs_perm (hids : (event.tracks.map (·.id)).Nodup) (settings : CascadeSettings) :
    (Cascade.pairs settings other (s.bachelorsOf other)).Perm
      (Cascade.pairs settings event (s.bachelorsOf event)) := by
  rw [Cascade.pairs_eq_filter_product, Cascade.pairs_eq_filter_product,
    h.selectV0_eq hids settings]
  exact ((h.bachelorsOf_perm s).product (h.v0s.filterMap _)).filter _

/-- The cascades and the fits for them are the same, in some order. -/
theorem cascadesOf_perm (hids : (event.tracks.map (·.id)).Nodup) :
    (s.cascadesOf other).rows.Perm (s.cascadesOf event).rows ∧
      (s.cascadesOf other).calls.Perm (s.cascadesOf event).calls := by
  unfold Search.cascadesOf
  cases s.cascades with
  | none => exact ⟨.refl _, .refl _⟩
  | some settings =>
    have hpairs := h.cascadePairs_perm s hids settings
    dsimp only
    rw [Cascade.search_eq_outcome, Cascade.search_eq_outcome]
    exact ⟨(hpairs.filter _).map _, hpairs.map _⟩

/-- Without triplets, the same combinations are evaluated. -/
theorem evaluations_perm (hpairs : s.scope.threeProng = false) :
    (s.evaluations other).Perm (s.evaluations event) := by
  have hformed := h.pairs_perm s
  unfold Search.formed at hformed
  rw [Combination.among_all_of_pairs hpairs, Combination.among_all_of_pairs hpairs] at hformed
  unfold Search.evaluations
  rw [h.primaryVertex]
  exact hformed.map _

/-! ## What is reported -/

/-- Without triplets, the fitter is asked the same, in some order. -/
theorem calls_report_perm (hids : (event.tracks.map (·.id)).Nodup)
    (hpairs : s.scope.threeProng = false) : (s.report other).calls.Perm (s.report event).calls := by
  unfold EventReport.calls
  rw [Search.candidateCalls_report, Search.candidateCalls_report, Search.cascadeCalls_report,
    Search.cascadeCalls_report]
  exact ((h.evaluations_perm s hpairs).flatMap_right _).append (h.cascadesOf_perm s hids).2

variable {s} (hs : s.WellFormed)
include hs

/-- The rows of pairs are the same, in some order. -/
theorem rows_report_perm :
    ((s.report other).output.rows .twoProng).Perm ((s.report event).output.rows .twoProng) := by
  rw [Search.rows_report_among hs, Search.rows_report_among hs, h.primaryVertex]
  exact (h.pairs_perm s).flatMap_right _

theorem tally_report_eq :
    (s.report other).output.tally .twoProng = (s.report event).output.tally .twoProng := by
  rw [Search.tally_report_among hs, Search.tally_report_among hs, h.primaryVertex]
  exact ((h.pairs_perm s).map _).foldr_eq HypothesisTally.zero

theorem fits_report_eq (hids : (event.tracks.map (·.id)).Nodup)
    (hpairs : s.scope.threeProng = false) :
    (s.report other).output.counts.fitsAttempted =
        (s.report event).output.counts.fitsAttempted ∧
      (s.report other).output.counts.fitsFailed = (s.report event).output.counts.fitsFailed := by
  have hcalls := h.calls_report_perm s hids hpairs
  have hevent := Search.isCounted_report hs event
  have hother := Search.isCounted_report hs other
  exact ⟨(hother.fitsAttempted.trans hcalls.length_eq).trans hevent.fitsAttempted.symm,
    (hother.fitsFailed.trans (hcalls.countP_eq _)).trans hevent.fitsFailed.symm⟩

end Event.Reordered

/-- The order in which an event lists its tracks and V0s does not matter. If no two tracks have
the same identity, the same pairs and cascades are found, with the same status of their cuts,
the same hypotheses are counted for pairs, and the same tracks are counted. If no triplets are
formed, the same fits are counted as well. -/
theorem the_order_of_the_tracks_does_not_matter {s : Search} (hs : s.WellFormed)
    {event other : Event} (haccepted : event.accepted = true)
    (hids : (event.tracks.map (·.id)).Nodup) (h : event.Reordered other) :
    ∃ report report', s.process event = .ok report ∧ s.process other = .ok report' ∧
      report'.output.twoProng.Perm report.output.twoProng ∧
      report'.output.twoProngTally = report.output.twoProngTally ∧
      report'.output.cascades.Perm report.output.cascades ∧
      report'.output.tracks = report.output.tracks ∧
      report'.output.counts.taggedTracks = report.output.counts.taggedTracks ∧
      (s.scope.threeProng = false →
        report'.output.counts.fitsAttempted = report.output.counts.fitsAttempted ∧
        report'.output.counts.fitsFailed = report.output.counts.fitsFailed) := by
  have haccepted' : other.accepted = true := h.accepted.trans haccepted
  refine ⟨_, _, Search.process_eq hs haccepted, Search.process_eq hs haccepted',
    h.rows_report_perm hs, h.tally_report_eq hs, ?_, ?_, ?_, h.fits_report_eq hs hids⟩
  · rw [Search.cascades_report, Search.cascades_report]
    exact (h.cascadesOf_perm s hids).1
  · rw [Search.tracks_report, Search.tracks_report]
    exact (h.verdicts_perm s).foldl_eq TrackTally.zero
  · rw [Search.taggedTracks_report, Search.taggedTracks_report]
    exact (h.verdicts_perm s).countP_eq _

namespace Sample

/-- Cuts that all V0s pass whose daughters are not too close to the beam. -/
def openCascades : CascadeSettings where
  bachelorTpcRefit := false
  bachelorMinCrossedRows := 0
  daughterTpcRefit := false
  daughterMinCrossedRows := 0
  daughterPtMin := 0
  daughterEtaMax := 10
  cosPointingMin := -1
  v0MassWindow := 10
  ptMin := 0
  cascadeMassWindow := -1

/-- The exhaustive search for pairs and cascades. -/
def pairSearch : Search :=
  { search true true with scope := ⟨true, false⟩, cascades := some openCascades }

/-- Two pairs with one negative track between them, and a V0 made of each pair. -/
def twoPairs : Event where
  primaryVertex := .zero
  accepted := true
  tracks := pair ++ [track 3 .positive ⟨1.25, 0.75, 0.125⟩]
  v0s := [⟨⟨1⟩, ⟨1⟩, ⟨2⟩, ⟨0.5, 0, 0⟩⟩, ⟨⟨2⟩, ⟨3⟩, ⟨2⟩, ⟨0.5, 0, 0⟩⟩]

/-- The same tracks and V0s from the last to the first. -/
def twoPairsReversed : Event :=
  { twoPairs with tracks := twoPairs.tracks.reverse, v0s := twoPairs.v0s.reverse }

end Sample

open Sample in
theorem two_pairs_are_fitted_in_either_order :
    pairSearch.WellFormed ∧ twoPairs.accepted = true ∧ (twoPairs.tracks.map (·.id)).Nodup ∧
      twoPairs.Reordered twoPairsReversed ∧ pairSearch.scope.threeProng = false ∧
      ∃ report report', pairSearch.process twoPairs = .ok report ∧
        pairSearch.process twoPairsReversed = .ok report' ∧
        report.output.twoProng.map (·.tracks) = [[⟨1⟩, ⟨2⟩], [⟨3⟩, ⟨2⟩]] ∧
        report'.output.twoProng.Perm report.output.twoProng ∧
        report'.output.cascades.Perm report.output.cascades ∧
        report'.output.counts.fitsAttempted = report.output.counts.fitsAttempted := by
  have hs : pairSearch.WellFormed := ⟨selector_wellFormed, hypotheses_wellFormed⟩
  have hids : (twoPairs.tracks.map (·.id)).Nodup := by decide
  have hreordered : twoPairs.Reordered twoPairsReversed :=
    ⟨rfl, rfl, List.reverse_perm _, List.reverse_perm _⟩
  obtain ⟨report, report', hprocess, hprocess', hrows, _, hcascades, _, _, hfits⟩ :=
    the_order_of_the_tracks_does_not_matter hs rfl hids hreordered
  refine ⟨hs, rfl, hids, hreordered, rfl, report, report', hprocess, hprocess', ?_, hrows,
    hcascades, (hfits rfl).1⟩
  obtain rfl := Except.ok.inj ((Search.process_eq hs rfl).symm.trans hprocess)
  decide +kernel

end DecaySearch
