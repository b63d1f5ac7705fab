-- What the search for cascades does, pair by pair: which V0s it selects, which pairs of a
-- bachelor and a V0 it fits, and what becomes of each fit.
import DecaySearch.Cascade
import DecaySearch.Proofs.FirstPlaces
import Mathlib.Data.List.ProdSigma

namespace DecaySearch

namespace Cascade

/-! ## Requirements -/

/-- A track has enough crossed rows in the TPC, and a refit if one is asked for. -/
def MeetsTpc (refit : Bool) (rows : UInt16) (t : Track) : Prop :=
  (refit = true → t.quality.tpcRefit = true) ∧ rows ≤ t.quality.tpcCrossedRows

theorem passesTpc_iff {refit : Bool} {rows : UInt16} {t : Track} :
    t.quality.passesTpc refit rows = true ↔ MeetsTpc refit rows t := by
  unfold TrackQuality.passesTpc MeetsTpc
  rw [Bool.and_eq_true, Bool.or_eq_true, Bool.not_eq_true', decide_eq_true_eq]
  cases refit <;> simp

/-- A track is the daughter that an identity stands for, and is good enough to be one. Of
several tracks with the identity it is the first. -/
structure IsDaughter (s : CascadeSettings) (event : Event) (id : TrackId) (t : Track) : Prop where
  first : ∃ i, FirstAt (fun other => other.id = id) event.tracks i t
  tpc : MeetsTpc s.daughterTpcRefit s.daughterMinCrossedRows t
  pt : ¬ t.pt < s.daughterPtMin
  eta : t.eta.abs ≤ s.daughterEtaMax

/-- A V0 looks like a K⁰S meson from the primary vertex that decays into two tracks. -/
structure IsK0S (s : CascadeSettings) (event : Event) (v0 : V0) (positive negative : Track) :
    Prop where
  positive_daughter : IsDaughter s event v0.positive positive
  negative_daughter : IsDaughter s event v0.negative negative
  mass : (mass [positive.momentum, negative.momentum] [Mass.pion, Mass.pion] - Mass.k0s).abs ≤
    s.v0MassWindow
  pointing : s.cosPointingMin ≤ Kinematics.cosPointingAngle event.primaryVertex v0.vertex
    (Kinematics.totalMomentum [positive.momentum, negative.momentum])

/-- A bachelor and a selected V0 are worth a fit. -/
structure IsWorthFit (s : CascadeSettings) (bachelor : Track) (selected : SelectedV0) : Prop where
  tpc : MeetsTpc s.bachelorTpcRefit s.bachelorMinCrossedRows bachelor
  not_positive : bachelor.id ≠ selected.v0.positive
  not_negative : bachelor.id ≠ selected.v0.negative
  mass : ¬ 0 ≤ s.cascadeMassWindow ∨
    (mass [selected.line.momentum, bachelor.momentum] [Mass.k0s, Mass.proton] -
      Mass.lambdaC).abs ≤ s.cascadeMassWindow

theorem near_iff {window mass nominal : Float} :
    near window mass nominal = true ↔ (mass - nominal).abs ≤ window := by
  unfold near
  exact decide_eq_true_iff

/-! ## Selected V0s -/

theorem track?_eq_some_iff {event : Event} {id : TrackId} {t : Track} :
    event.track? id = some t ↔ ∃ i, FirstAt (fun other => other.id = id) event.tracks i t :=
  FirstAt.find?_eq_some_iff fun _ => by simp

theorem isDaughter_iff {s : CascadeSettings} {event : Event} {id : TrackId} {t : Track} :
    IsDaughter s event id t ↔ event.track? id = some t ∧ daughterPasses s t = true := by
  unfold daughterPasses
  simp only [Bool.and_eq_true, passesTpc_iff, Bool.not_eq_true', decide_eq_true_eq,
    decide_eq_false_iff_not]
  constructor
  · rintro ⟨hfirst, htpc, hpt, heta⟩
    exact ⟨track?_eq_some_iff.mpr hfirst, ⟨htpc, hpt⟩, heta⟩
  · rintro ⟨hfirst, ⟨htpc, hpt⟩, heta⟩
    exact ⟨track?_eq_some_iff.mp hfirst, htpc, hpt, heta⟩

theorem selectV0_eq_some_iff {s : CascadeSettings} {event : Event} {v0 : V0}
    {selected : SelectedV0} :
    selectV0 s event v0 = some selected ↔
      ∃ positive negative, IsK0S s event v0 positive negative ∧
        selected = ⟨v0, flightLine event.primaryVertex v0
          (Kinematics.totalMomentum [positive.momentum, negative.momentum])⟩ := by
  unfold selectV0
  simp only [Option.bind_eq_bind, Option.bind_eq_some_iff, Option.ite_none_right_eq_some,
    Bool.and_eq_true, near_iff, decide_eq_true_eq, Option.some.injEq]
  constructor
  · rintro ⟨positive, hpositive, negative, hnegative, ⟨⟨⟨hgood, hgood'⟩, hmass⟩, hpointing⟩, rfl⟩
    exact ⟨positive, negative, ⟨isDaughter_iff.mpr ⟨hpositive, hgood⟩,
      isDaughter_iff.mpr ⟨hnegative, hgood'⟩, hmass, hpointing⟩, rfl⟩
  · rintro ⟨positive, negative, ⟨hpositive, hnegative, hmass, hpointing⟩, rfl⟩
    obtain ⟨hpositive, hgood⟩ := isDaughter_iff.mp hpositive
    obtain ⟨hnegative, hgood'⟩ := isDaughter_iff.mp hnegative
    exact ⟨positive, hpositive, negative, hnegative, ⟨⟨⟨hgood, hgood'⟩, hmass⟩, hpointing⟩, rfl⟩

/-- Two tracks of the event make a V0 look like a K⁰S meson. -/
def LooksLikeK0S (s : CascadeSettings) (event : Event) (v0 : V0) : Prop :=
  ∃ positive negative, IsK0S s event v0 positive negative

theorem isSome_selectV0_iff {s : CascadeSettings} {event : Event} {v0 : V0} :
    (selectV0 s event v0).isSome = true ↔ LooksLikeK0S s event v0 := by
  simp only [Option.isSome_iff_exists, selectV0_eq_some_iff]
  constructor
  · rintro ⟨_, positive, negative, hk0s, _⟩
    exact ⟨positive, negative, hk0s⟩
  · rintro ⟨positive, negative, hk0s⟩
    exact ⟨_, positive, negative, hk0s, rfl⟩

instance (s : CascadeSettings) (event : Event) : DecidablePred (LooksLikeK0S s event) :=
  fun _ => decidable_of_iff _ isSome_selectV0_iff

/-- The V0s are selected in their order. -/
theorem map_v0_filterMap_selectV0 (s : CascadeSettings) (event : Event) (v0s : List V0) :
    (v0s.filterMap (selectV0 s event)).map (·.v0) =
      v0s.filter fun v0 => decide (LooksLikeK0S s event v0) := by
  rw [List.map_filterMap, ← List.filterMap_eq_filter]
  refine List.filterMap_congr fun v0 _ => ?_
  cases hselect : selectV0 s event v0 with
  | none =>
    have hno : ¬ LooksLikeK0S s event v0 := by simp [← isSome_selectV0_iff, hselect]
    simp [Option.guard, hno]
  | some selected =>
    have hyes : LooksLikeK0S s event v0 := by simp [← isSome_selectV0_iff, hselect]
    obtain ⟨_, _, _, rfl⟩ := selectV0_eq_some_iff.mp hselect
    simp [Option.guard, hyes]

/-! ## Pairs that are fitted -/

theorem isWorthFit_iff {s : CascadeSettings} {bachelor : Track} {selected : SelectedV0} :
    (bachelorPasses s bachelor && pairPasses s bachelor selected) = true ↔
      IsWorthFit s bachelor selected := by
  unfold bachelorPasses pairPasses massPasses
  simp only [Bool.and_eq_true, passesTpc_iff, Bool.or_eq_true, near_iff, Bool.not_eq_true',
    decide_eq_true_eq, decide_eq_false_iff_not]
  constructor
  · rintro ⟨htpc, ⟨hpositive, hnegative⟩, hmass⟩
    exact ⟨htpc, hpositive, hnegative, hmass⟩
  · rintro ⟨htpc, hpositive, hnegative, hmass⟩
    exact ⟨htpc, ⟨hpositive, hnegative⟩, hmass⟩

instance (s : CascadeSettings) (bachelor : Track) (selected : SelectedV0) :
    Decidable (IsWorthFit s bachelor selected) :=
  decidable_of_iff _ isWorthFit_iff

/-- Of all pairs, by bachelor and then by V0, those that are worth it are fitted. -/
theorem pairs_eq_filter_product (s : CascadeSettings) (event : Event) (bachelors : List Track) :
    pairs s event bachelors =
      (bachelors ×ˢ event.v0s.filterMap (selectV0 s event)).filter fun pair =>
        decide (IsWorthFit s pair.1 pair.2) := by
  unfold pairs
  dsimp only
  induction bachelors with
  | nil => rfl
  | cons bachelor rest ih =>
    rw [List.product_cons, List.filter_append, ← ih, List.filter_map]
    cases hpasses : bachelorPasses s bachelor with
    | false =>
      rw [List.filter_cons_of_neg (by simp [hpasses])]
      simp [Function.comp_def, ← isWorthFit_iff, hpasses]
    | true =>
      rw [List.filter_cons_of_pos hpasses, List.flatMap_cons]
      simp [Function.comp_def, ← isWorthFit_iff, hpasses]

/-! ## Fits and what becomes of them -/

/-- The transverse momentum after a fit. -/
def fittedPt (vertex : FittedVertex) : Float :=
  Kinematics.pt (Kinematics.totalMomentum vertex.momenta)

/-- What pairs come to that are fitted in their order. -/
def outcome (s : CascadeSettings) (fitter : Fitter) (fitted : List (Track × SelectedV0)) :
    Output where
  rows := (fitted.filter fun (bachelor, selected) =>
      (fitter [selected.line, bachelor]).any fun vertex => !(fittedPt vertex < s.ptMin)).map
    fun (bachelor, selected) => ⟨bachelor.id, selected.v0.id⟩
  fitsAttempted := fitted.length
  fitsFailed := fitted.countP fun (bachelor, selected) =>
    (fitter [selected.line, bachelor]).isNone
  calls := fitted.map fun (bachelor, selected) => fitter.call [selected.line, bachelor]

/-- One more pair adds its call, its count and its row, if it comes to one. -/
theorem append_outcome (s : CascadeSettings) (fitter : Fitter) (bachelor : Track)
    (selected : SelectedV0) (later : List (Track × SelectedV0)) :
    (fitPair s fitter bachelor selected).append (outcome s fitter later) =
      outcome s fitter ((bachelor, selected) :: later) := by
  have hpasses : ∀ vertex, vertexPasses s vertex = !(fittedPt vertex < s.ptMin) := fun _ => rfl
  unfold fitPair Output.append outcome Fitter.call
  cases hfit : fitter [selected.line, bachelor] with
  | none => simp [hfit, Nat.add_comm]
  | some vertex =>
    by_cases hpt : fittedPt vertex < s.ptMin <;> simp [hfit, hpasses, hpt, Nat.add_comm]

/-- A search comes to what the pairs that it fits come to. -/
theorem search_eq_outcome (s : CascadeSettings) (fitter : Fitter) (event : Event)
    (bachelors : List Track) :
    search s fitter event bachelors = outcome s fitter (pairs s event bachelors) := by
  unfold search
  induction pairs s event bachelors with
  | nil => rfl
  | cons pair later ih =>
    rw [List.map_cons, List.foldr_cons, ih]
    exact append_outcome s fitter pair.1 pair.2 later

/-- A fit fails, or it is dropped for its transverse momentum, or it makes a row. -/
theorem length_rows_outcome (s : CascadeSettings) (fitter : Fitter)
    (fitted : List (Track × SelectedV0)) :
    (outcome s fitter fitted).rows.length + (outcome s fitter fitted).fitsFailed +
      fitted.countP (fun (bachelor, selected) =>
        (fitter [selected.line, bachelor]).any fun vertex => fittedPt vertex < s.ptMin) =
      (outcome s fitter fitted).fitsAttempted := by
  unfold outcome
  simp only [List.length_map, ← List.countP_eq_length_filter]
  induction fitted with
  | nil => rfl
  | cons pair later ih =>
    obtain ⟨bachelor, selected⟩ := pair
    simp only [List.countP_cons, List.length_cons]
    cases hfit : fitter [selected.line, bachelor] with
    | none =>
      simp only [Option.any_none, Option.isNone_none, Bool.false_eq_true, if_false, if_true]
      omega
    | some vertex =>
      by_cases hpt : fittedPt vertex < s.ptMin <;>
        simp only [Option.any_some, Option.isNone_some, hpt, decide_true, decide_false,
          Bool.not_true, Bool.not_false, Bool.false_eq_true, if_false, if_true] <;>
        omega

/-- The search for cascades fits every pair of a good bachelor and a V0 that looks like a K⁰S
meson once, unless the V0 has the bachelor for a daughter or the mass before the fit is too
far away, and a row is made of each fit that is not too soft. -/
theorem the_cascade_search_fits_each_worthy_pair_once (s : CascadeSettings) (fitter : Fitter)
    (event : Event) (bachelors : List Track) :
    ∃ selected : List SelectedV0,
      selected.map (·.v0) = event.v0s.filter (fun v0 => decide (LooksLikeK0S s event v0)) ∧
      (∀ v ∈ selected, ∃ positive negative, IsK0S s event v.v0 positive negative ∧
        v.line = flightLine event.primaryVertex v.v0
          (Kinematics.totalMomentum [positive.momentum, negative.momentum])) ∧
      let fitted := (bachelors ×ˢ selected).filter fun pair =>
        decide (IsWorthFit s pair.1 pair.2)
      let found := search s fitter event bachelors
      found.calls = fitted.map (fun (bachelor, v) => fitter.call [v.line, bachelor]) ∧
      found.fitsAttempted = fitted.length ∧
      found.fitsFailed = fitted.countP
        (fun (bachelor, v) => (fitter [v.line, bachelor]).isNone) ∧
      found.rows = (fitted.filter fun (bachelor, v) =>
          (fitter [v.line, bachelor]).any fun vertex => !(fittedPt vertex < s.ptMin)).map
        (fun (bachelor, v) => ⟨bachelor.id, v.v0.id⟩) ∧
      found.rows.length + found.fitsFailed + fitted.countP (fun (bachelor, v) =>
          (fitter [v.line, bachelor]).any fun vertex => fittedPt vertex < s.ptMin) =
        found.fitsAttempted ∧
      ∀ row ∈ found.rows, ∃ bachelor ∈ bachelors, ∃ v0 ∈ event.v0s,
        row = ⟨bachelor.id, v0.id⟩ ∧ bachelor.id ≠ v0.positive ∧ bachelor.id ≠ v0.negative := by
  refine ⟨event.v0s.filterMap (selectV0 s event), map_v0_filterMap_selectV0 s event event.v0s,
    ?_, ?_⟩
  · intro v hv
    obtain ⟨v0, _, hselect⟩ := List.mem_filterMap.mp hv
    obtain ⟨positive, negative, hk0s, rfl⟩ := selectV0_eq_some_iff.mp hselect
    exact ⟨positive, negative, hk0s, rfl⟩
  · rw [search_eq_outcome, ← pairs_eq_filter_product]
    refine ⟨rfl, rfl, rfl, rfl, length_rows_outcome s fitter _, ?_⟩
    intro row hrow
    obtain ⟨⟨bachelor, v⟩, hkept, rfl⟩ := List.mem_map.mp hrow
    have hfitted := List.mem_of_mem_filter hkept
    rw [pairs_eq_filter_product] at hfitted
    obtain ⟨hpair, hworth⟩ := List.mem_filter.mp hfitted
    obtain ⟨hbachelor, hv⟩ := List.mem_product.mp hpair
    obtain ⟨v0, hv0, hselect⟩ := List.mem_filterMap.mp hv
    obtain ⟨_, _, _, rfl⟩ := selectV0_eq_some_iff.mp hselect
    have hapart := of_decide_eq_true hworth
    exact ⟨bachelor, hbachelor, v0, hv0, rfl, hapart.not_positive, hapart.not_negative⟩

end Cascade

end DecaySearch
