-- Charge conjugation. If every track of an event had the opposite charge, the same triplets
-- would be formed, in another order: a triplet that a second positive track completes
-- becomes one that a second negative track completes.
import DecaySearch.Proofs.ReportsByArity

namespace DecaySearch

/-! ## The conjugate event -/

/-- A track of the opposite charge. -/
def Track.conjugate (t : Track) : Track := { t with sign := t.sign.opposite }

/-- An event in which every track has the opposite charge. -/
def Event.conjugate (event : Event) : Event :=
  { event with tracks := event.tracks.map Track.conjugate }

/-- The fitter does not look at the charges of the tracks. -/
def Fitter.ChargeBlind (fitter : Fitter) : Prop :=
  ∀ tracks, fitter (tracks.map Track.conjugate) = fitter tracks

namespace StraightLine

theorem spreadsTooFar_conjugate (settings : FitterSettings) (tracks : List Track) :
    spreadsTooFar settings (tracks.map Track.conjugate) = spreadsTooFar settings tracks := by
  unfold spreadsTooFar dzSpread
  rw [List.map_map]
  rfl

theorem solve?_conjugate (tracks : List Track) (projectors : List Mat3) :
    solve? (tracks.map Track.conjugate) projectors = solve? tracks projectors := by
  unfold solve? rightSide
  rw [List.zipWith_map_left]
  rfl

theorem admits_conjugate (settings : FitterSettings) (tracks : List Track)
    (projectors : List Mat3) (point : Position) :
    admits settings (tracks.map Track.conjugate) projectors point =
      admits settings tracks projectors point := by
  unfold admits
  rw [List.zip_map_left, List.all_map]
  rfl

/-- The straight-line fit looks at momenta and reference points only. -/
theorem chargeBlind_fit (settings : FitterSettings) :
    Fitter.ChargeBlind (StraightLine.fit settings) := by
  intro tracks
  unfold fit
  simp only [List.length_map, spreadsTooFar_conjugate, List.mapM_map, solve?_conjugate,
    admits_conjugate, List.map_map]
  rfl

end StraightLine

/-! ## The conjugate lists of tracks -/

def TaggedTrack.conjugate (t : TaggedTrack) : TaggedTrack := { t with track := t.track.conjugate }

theorem Search.signed_conjugate (s : Search) (event : Event) (sign : Sign) :
    s.signed event.conjugate sign = (s.signed event sign.opposite).map TaggedTrack.conjugate := by
  have hsign : ∀ t : Track,
      decide (t.conjugate.sign = sign) = decide (t.sign = sign.opposite) := by
    intro t
    unfold Track.conjugate
    cases t.sign <;> cases sign <;> rfl
  unfold signed Event.conjugate
  rw [List.filter_map, List.map_map, List.map_map]
  simp only [Function.comp_def, hsign]
  rfl

namespace Combination

/-! ## Triplets -/

/-- The combinations of three tracks. -/
def tripletsAmong (combinations : List (List Track)) : List (List Track) :=
  combinations.filter (·.length = 3)

/-- The triplets that the tracks of two lists form. -/
def allTriplets (s : Scope) (ps ns : List TaggedTrack) : List (List Track) :=
  (withLater ps).flatMap fun (p, laterP) =>
    (withLater ns).flatMap fun (n, laterN) => triplets s p n laterP laterN

theorem tripletsAmong_all (s : Scope) (ps ns : List TaggedTrack) :
    tripletsAmong (all s ps ns) = allTriplets s ps ns :=
  among_all .threeProng s ps ns

/-- Two tracks begin the same triplets in either order. -/
theorem triplets_swap (s : Scope) (p n : TaggedTrack) (laterP laterN : List TaggedTrack) :
    (triplets s n p laterN laterP).Perm (triplets s p n laterP laterN) := by
  unfold triplets
  rw [Bool.and_comm]
  split
  · exact List.perm_append_comm
  · exact .nil

/-- The order in which two lists are gone through does not matter. -/
theorem flatMap_swap {α β γ : Type} (xs : List α) (ys : List β) (f : α → β → List γ) :
    (ys.flatMap fun y => xs.flatMap fun x => f x y).Perm
      (xs.flatMap fun x => ys.flatMap fun y => f x y) := by
  have hbind := Multiset.bind_bind (xs : Multiset α) (ys : Multiset β)
    (f := fun x y => (f x y : Multiset γ))
  simp only [Multiset.coe_bind] at hbind
  exact (Multiset.coe_eq_coe.mp hbind).symm

/-- Positive and negative tracks play the same part in the triplets. -/
theorem allTriplets_swap (s : Scope) (ps ns : List TaggedTrack) :
    (allTriplets s ns ps).Perm (allTriplets s ps ns) := by
  unfold allTriplets
  refine List.Perm.trans ?_ (flatMap_swap (withLater ps) (withLater ns)
    fun x y => triplets s x.1 y.1 x.2 y.2)
  refine List.Perm.flatMap_left _ fun y _ => List.Perm.flatMap_left _ fun x _ => ?_
  exact triplets_swap s x.1 y.1 x.2 y.2

theorem partners_conjugate (s : Scope) (t : TaggedTrack) (later : List TaggedTrack) :
    partners s t.conjugate (later.map .conjugate) = (partners s t later).map .conjugate := by
  unfold partners
  rw [List.filter_map]
  rfl

theorem triplets_conjugate (s : Scope) (p n : TaggedTrack) (laterP laterN : List TaggedTrack) :
    triplets s p.conjugate n.conjugate (laterP.map .conjugate) (laterN.map .conjugate) =
      (triplets s p n laterP laterN).map (·.map Track.conjugate) := by
  unfold triplets
  rw [partners_conjugate, partners_conjugate, List.map_map, List.map_map]
  change (if (s.allowsTriplet p && s.allowsTriplet n) = true then _ else _) = _
  split
  · rw [List.map_append, List.map_map, List.map_map]
    rfl
  · rfl

theorem allTriplets_conjugate (s : Scope) (ps ns : List TaggedTrack) :
    allTriplets s (ps.map .conjugate) (ns.map .conjugate) =
      (allTriplets s ps ns).map (·.map Track.conjugate) := by
  unfold allTriplets
  rw [withLater_map, withLater_map, List.map_flatMap, List.flatMap_map]
  congr 1
  funext ⟨p, laterP⟩
  dsimp only
  rw [List.map_flatMap, List.flatMap_map]
  congr 1
  funext ⟨n, laterN⟩
  exact triplets_conjugate s p n laterP laterN

end Combination

/-! ## The conjugate evaluation -/

/-- The evaluation of the conjugate tracks, if the fitter does not look at charges. -/
def Evaluation.conjugate (e : Evaluation) : Evaluation where
  candidate := { e.candidate with prongs := e.candidate.prongs.map Track.conjugate }
  fit := e.fit
  calls := e.calls.map fun call => ⟨call.tracks.map Track.conjugate, call.vertex⟩

namespace Evaluation

/-- A row names tracks by their identities, so it does not tell their charges. -/
theorem rows_conjugate (e : Evaluation) (mode : SelectionMode) (arity : Arity) :
    e.conjugate.rows mode arity = e.rows mode arity := by
  unfold rows conjugate Candidate.toRow
  rw [List.map_map]
  rfl

theorem tally_conjugate (e : Evaluation) (arity : Arity) :
    e.conjugate.tally arity = e.tally arity := rfl

end Evaluation

/-- The cuts before the fit do not look at charges. -/
theorem PreFitQuantities.ofProngs_conjugate (margin : Float) (prongs : List Track) :
    ofProngs margin (prongs.map Track.conjugate) = ofProngs margin prongs := by
  unfold ofProngs
  rw [List.map_map]
  match prongs with
  | [] => rfl
  | [_] => rfl
  | _ :: _ :: _ => rfl

namespace Search

theorem triesFit_conjugate (s : Search) (arity : Arity) (prongs : List Track) :
    s.triesFit arity (prongs.map Track.conjugate) = s.triesFit arity prongs := by
  unfold triesFit candidateBefore Candidate.before
  rw [PreFitQuantities.ofProngs_conjugate]
  rfl

theorem outcome_conjugate {s : Search} (hblind : s.fitter.ChargeBlind) (arity : Arity)
    (primary : Position) (prongs : List Track) :
    s.outcome arity primary (prongs.map Track.conjugate) =
      (s.outcome arity primary prongs).conjugate := by
  unfold outcome candidateBefore candidateAfter Candidate.before Candidate.after
  rw [triesFit_conjugate, hblind prongs, PreFitQuantities.ofProngs_conjugate]
  cases s.triesFit arity prongs with
  | false => rfl
  | true => cases s.fitter prongs <;> rfl

open Combination in
/-- The triplets of the conjugate event are those of the event, conjugate. -/
theorem tripletsAmong_formed_conjugate (s : Search) (event : Event) :
    (tripletsAmong (s.formed event.conjugate)).Perm
      ((tripletsAmong (s.formed event)).map (·.map Track.conjugate)) := by
  unfold formed
  rw [signed_conjugate, signed_conjugate, tripletsAmong_all, tripletsAmong_all,
    allTriplets_conjugate]
  exact (allTriplets_swap s.scope _ _).map _

/-- The rows of triplets are the same, in some order. -/
theorem rows_report_conjugate {s : Search} (hs : s.WellFormed) (hblind : s.fitter.ChargeBlind)
    (event : Event) :
    ((s.report event.conjugate).output.rows .threeProng).Perm
      ((s.report event).output.rows .threeProng) := by
  have htriplets : (Combination.among .threeProng (s.formed event.conjugate)).Perm _ :=
    tripletsAmong_formed_conjugate s event
  rw [rows_report_among hs, rows_report_among hs]
  refine (htriplets.flatMap_right _).trans ?_
  rw [List.flatMap_map]
  refine List.Perm.flatMap_left _ fun prongs _ => ?_
  rw [show event.conjugate.primaryVertex = event.primaryVertex from rfl,
    outcome_conjugate hblind, Evaluation.rows_conjugate]

/-- The triplets count for the same hypotheses. -/
theorem tally_report_conjugate {s : Search} (hs : s.WellFormed) (hblind : s.fitter.ChargeBlind)
    (event : Event) :
    (s.report event.conjugate).output.tally .threeProng =
      (s.report event).output.tally .threeProng := by
  have htriplets : (Combination.among .threeProng (s.formed event.conjugate)).Perm _ :=
    tripletsAmong_formed_conjugate s event
  rw [tally_report_among hs, tally_report_among hs]
  refine ((htriplets.map _).foldr_eq HypothesisTally.zero).trans ?_
  rw [List.map_map]
  congr 1
  refine List.map_congr_left fun prongs _ => ?_
  rw [Function.comp_apply, show event.conjugate.primaryVertex = event.primaryVertex from rfl,
    outcome_conjugate hblind, Evaluation.tally_conjugate]

end Search

/-! ## Three-prong search -/

/-- If the fitter does not look at charges, the conjugate event is searched for triplets as
the event is: the same ordered triplets are evaluated, the same rows are written and the
tallies are equal. Only the order of the triplets may be another one. -/
theorem the_triplets_of_the_conjugate_event_are_conjugate {s : Search} (hs : s.WellFormed)
    (hblind : s.fitter.ChargeBlind) {event : Event} (haccepted : event.accepted = true) :
    ∃ tagged tagged' report report',
      s.tag event = .ok tagged ∧ s.tag event.conjugate = .ok tagged' ∧
      s.process event = .ok report ∧ s.process event.conjugate = .ok report' ∧
      (Combination.tripletsAmong (s.combinations tagged')).Perm
        ((Combination.tripletsAmong (s.combinations tagged)).map (·.map Track.conjugate)) ∧
      report'.output.threeProng.Perm report.output.threeProng ∧
      report'.output.threeProngTally = report.output.threeProngTally := by
  have haccepted' : event.conjugate.accepted = true := haccepted
  refine ⟨_, _, _, _, Search.tag_eq hs event, Search.tag_eq hs event.conjugate,
    Search.process_eq hs haccepted, Search.process_eq hs haccepted', ?_, ?_, ?_⟩
  · rw [Search.combinations_tagged, Search.combinations_tagged]
    exact Search.tripletsAmong_formed_conjugate s event
  · exact Search.rows_report_conjugate hs hblind event
  · exact Search.tally_report_conjugate hs hblind event

namespace Sample

/-- The exhaustive search with straight-line fits. -/
def straightSearch : Search :=
  { search true true with fitter := StraightLine.fit ⟨100, 0, 100⟩ }

/-- Two positive tracks and a negative one. -/
def triplet : List Track :=
  [track 1 .positive ⟨1.25, 0.75, 0⟩, track 2 .negative ⟨1.25, -0.75, 0⟩,
    track 3 .positive ⟨1.25, 0, 0.75⟩]

def tripletEvent : Event := ⟨.zero, true, triplet, []⟩

end Sample

/-- A second positive track completes the triplet, and a second negative track completes
the conjugate one. -/
theorem a_triplet_is_looked_at_under_either_charge :
    Sample.straightSearch.WellFormed ∧ Sample.straightSearch.fitter.ChargeBlind ∧
      Sample.tripletEvent.accepted = true ∧
      ∃ tagged', Sample.straightSearch.tag Sample.tripletEvent.conjugate = .ok tagged' ∧
        Combination.tripletsAmong (Sample.straightSearch.combinations tagged') =
          [Sample.triplet.map Track.conjugate] := by
  have hs : Sample.straightSearch.WellFormed :=
    ⟨Sample.selector_wellFormed, Sample.hypotheses_wellFormed⟩
  have hblind := StraightLine.chargeBlind_fit ⟨100, 0, 100⟩
  refine ⟨hs, hblind, rfl, ?_⟩
  obtain ⟨tagged, tagged', _, _, htag, htag', _, _, htriplets, _⟩ :=
    the_triplets_of_the_conjugate_event_are_conjugate hs hblind
      (rfl : Sample.tripletEvent.accepted = true)
  refine ⟨tagged', htag', ?_⟩
  rw [Search.tag_eq hs] at htag
  cases htag
  have hformed : Combination.tripletsAmong (Sample.straightSearch.formed Sample.tripletEvent) =
      [Sample.triplet] := rfl
  rw [Search.combinations_tagged, hformed, List.map_singleton] at htriplets
  exact List.perm_singleton.mp htriplets

end DecaySearch
