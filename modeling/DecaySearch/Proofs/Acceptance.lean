-- When a combination of tracks is accepted. The conditions are stated on the
-- thresholds and the quantities alone: no mode, mask or order of cuts occurs in
-- them, so the search may skip work only where the outcome is settled.
import DecaySearch.Proofs.Evaluation

namespace DecaySearch

/-! ## The conditions -/

namespace DecayHypothesis

/-- The mass window of a bin is disabled, or a mass assignment lies in it. The
window is closed below and open above. -/
def MassFits (h : DecayHypothesis) (i : Nat) (momenta : List Momentum) : Prop :=
  let least := h.cuts.threshold i .massMin
  let largest := h.cuts.threshold i .massMax
  least < 0 ∨ largest ≤ 0 ∨
    ∃ masses, (masses = h.decay.massAssignments.1 ∨ masses = h.decay.massAssignments.2) ∧
      least * least ≤ Kinematics.massSquared momenta masses ∧
      Kinematics.massSquared momenta masses < largest * largest

/-- The product of the impact parameters of two tracks is not too large. Triplets
have no such cut. -/
def ProductFits (h : DecayHypothesis) (i : Nat) (prongs : List Track) : Prop :=
  ∀ a b, prongs = [a, b] → ¬ h.cuts.threshold i .impactParameterProduct < a.dcaXY * b.dcaXY

/-- The tracks pass every cut before the fit. -/
def PassesBeforeFit (h : DecayHypothesis) (margin : Float) (prongs : List Track) : Prop :=
  let momenta := prongs.map (·.momentum)
  ∃ i, h.cuts.InBin i (Kinematics.pt (Kinematics.totalMomentum momenta) + margin) ∧
    h.MassFits i momenta ∧ h.ProductFits i prongs

/-- The vertex passes every cut after the fit. Only triplets have a cut on the
decay length. -/
def PassesAfterFit (h : DecayHypothesis) (primary : Position) (vertex : FittedVertex) : Prop :=
  let p := Kinematics.totalMomentum vertex.momenta
  ∃ j, h.cuts.InBin j (Kinematics.pt p) ∧
    h.cuts.threshold j .cosPointingAngle ≤
      Kinematics.cosPointingAngle primary vertex.position p ∧
    (h.decay.arity = .threeProng →
      ¬ Kinematics.decayLength primary vertex.position < h.cuts.threshold j .decayLength)

end DecayHypothesis

/-- An enabled hypothesis passes every cut before the fit. -/
def Search.Survives (s : Search) (arity : Arity) (prongs : List Track) (bit : Nat) : Prop :=
  ∃ h, (s.hypotheses.group arity).hypotheses[bit]? = some h ∧ h.enabled = true ∧
    h.PassesBeforeFit s.preselector.ptTolerance prongs

/-- An enabled hypothesis passes every cut before the fit, there is a vertex, and
the hypothesis passes every cut after the fit. -/
def Search.Accepts (s : Search) (arity : Arity) (primary : Position) (prongs : List Track)
    (bit : Nat) : Prop :=
  ∃ h, (s.hypotheses.group arity).hypotheses[bit]? = some h ∧ h.enabled = true ∧
    h.PassesBeforeFit s.preselector.ptTolerance prongs ∧
    ∃ vertex, s.fitter prongs = some vertex ∧ h.PassesAfterFit primary vertex

/-! ## The findings decide the conditions -/

namespace CutTable

/-- A value lies in one bin only, the one that a look-up finds. -/
theorem inBin_iff_of_findBin {t : CutTable} (hw : t.WellFormed) {x : Float} {bin : PtBin}
    (h : t.findBin x = some bin) (i : Nat) : t.InBin i x ↔ i = bin.index := by
  rw [← findBin_eq_some_iff hw x ⟨i⟩, h]
  cases bin
  simp [eq_comm]

end CutTable

namespace DecayHypothesis

theorem hasMassWindow_preFitCutsIn (h : DecayHypothesis) (i : Nat) :
    (h.preFitCutsIn i).hasMassWindow = true ↔
      0 ≤ h.cuts.threshold i .massMin ∧ 0 < h.cuts.threshold i .massMax := by
  unfold PreFitCuts.hasMassWindow
  rw [Bool.and_eq_true, decide_eq_true_iff, decide_eq_true_iff]
  rfl

theorem admitsMass_preFitCutsIn (h : DecayHypothesis) (i : Nat) (m : Float) :
    (h.preFitCutsIn i).admitsMass m = true ↔
      h.cuts.threshold i .massMin * h.cuts.threshold i .massMin ≤ m ∧
        m < h.cuts.threshold i .massMax * h.cuts.threshold i .massMax := by
  unfold PreFitCuts.admitsMass
  rw [Bool.and_eq_true, decide_eq_true_iff, decide_eq_true_iff]
  rfl

/-- The thresholds that a selection reads are numbers. -/
theorem isNaN_threshold {h : DecayHypothesis} (hw : h.WellFormed) {i : Nat} {x : Float}
    (hb : h.cuts.InBin i x) {v : CutVariable} (hv : v ∈ h.decay.arity.requiredCuts) :
    (h.cuts.threshold i v).isNaN = false :=
  FloatOrder.isNaN_of_isFinite (CutTable.isFinite_threshold hw.table (hw.columns v hv) hb)

theorem any_matchIn_iff {h : DecayHypothesis} (hw : h.WellFormed) {i : Nat} {x : Float}
    (hb : h.cuts.InBin i x) (momenta : List Momentum) :
    (h.matchIn (h.preFitCutsIn i) momenta).any = true ↔ h.MassFits i momenta := by
  have hmin : (h.cuts.threshold i .massMin).isNaN = false :=
    isNaN_threshold hw hb (by cases h.decay.arity <;> decide)
  have hmax : (h.cuts.threshold i .massMax).isNaN = false :=
    isNaN_threshold hw hb (by cases h.decay.arity <;> decide)
  have hzero : (0 : Float).isNaN = false := by decide
  have hany : ∀ a b : Bool, (PermutationMatch.ofVerdicts a b).any = (a || b) := by decide
  unfold matchIn MassFits
  split
  · rename_i hwindow
    rw [hasMassWindow_preFitCutsIn] at hwindow
    have hlow := FloatOrder.not_lt_of_le hwindow.1
    have hhigh := FloatOrder.not_le_of_lt hwindow.2
    rw [hany, Bool.or_eq_true, admitsMass_preFitCutsIn, admitsMass_preFitCutsIn]
    constructor
    · rintro (hfirst | hsecond)
      · exact Or.inr (Or.inr ⟨_, Or.inl rfl, hfirst⟩)
      · exact Or.inr (Or.inr ⟨_, Or.inr rfl, hsecond⟩)
    · rintro (hoff | hoff | ⟨masses, rfl | rfl, hfits⟩)
      · exact absurd hoff hlow
      · exact absurd hoff hhigh
      · exact Or.inl hfits
      · exact Or.inr hfits
  · rename_i hwindow
    rw [hasMassWindow_preFitCutsIn, Classical.not_and_iff_not_or_not] at hwindow
    have hboth : PermutationMatch.both.any = true := by decide
    simp only [hboth, true_iff]
    -- A threshold is a number, so one that is not above zero is below it.
    rcases hwindow with hlow | hhigh
    · exact Or.inl (FloatOrder.lt_of_not_le hmin hzero hlow)
    · exact Or.inr (Or.inl (FloatOrder.le_of_not_lt hmax hzero hhigh))

theorem exceedsProduct_iff {h : DecayHypothesis} {prongs : List Track}
    (hlen : prongs.length = h.decay.arity.prongs) (margin : Float) (i : Nat) :
    (h.preFitCutsIn i).exceedsProduct (PreFitQuantities.ofProngs margin prongs).product = false ↔
      h.ProductFits i prongs := by
  unfold ProductFits preFitCutsIn PreFitCuts.exceedsProduct
  cases ha : h.decay.arity with
  | twoProng =>
    rw [ha] at hlen
    match prongs, hlen with
    | [a, b], _ => simp [PreFitQuantities.ofProngs]
  | threeProng =>
    rw [ha] at hlen
    simp only [true_iff]
    rintro a b rfl
    cases hlen

theorem passes_preFitFinding_iff {h : DecayHypothesis} (hw : h.WellFormed) {prongs : List Track}
    (hlen : prongs.length = h.decay.arity.prongs) (margin : Float) :
    (h.preFitFinding (.ofProngs margin prongs)).passes = true ↔
      h.PassesBeforeFit margin prongs := by
  unfold preFitFinding PassesBeforeFit
  cases hbin : h.cuts.findBin (PreFitQuantities.ofProngs margin prongs).pt with
  | none =>
    have hnone := (CutTable.findBin_eq_none_iff hw.table _).mp hbin
    simp only [PreFitFinding.passes, Bool.false_eq_true, false_iff]
    rintro ⟨i, hi, _⟩
    exact hnone i hi
  | some bin =>
    have hin := (CutTable.findBin_eq_some_iff hw.table _ bin).mp hbin
    have hone := CutTable.inBin_iff_of_findBin hw.table hbin
    simp only [PreFitFinding.passes, Bool.and_eq_true, Bool.not_eq_true',
      exceedsProduct_iff hlen margin]
    rw [any_matchIn_iff hw hin]
    constructor
    · intro hpass
      exact ⟨bin.index, hin, hpass⟩
    · rintro ⟨i, hi, hpass⟩
      rwa [(hone i).mp hi] at hpass

theorem passes_postFitFinding_iff {h : DecayHypothesis} (hw : h.WellFormed)
    (primary : Position) (vertex : FittedVertex) :
    (h.postFitFinding (.ofVertex vertex primary)).passes = true ↔
      h.PassesAfterFit primary vertex := by
  have hshort : ∀ j, (h.postFitCutsIn j).fallsShort
      (Kinematics.decayLength primary vertex.position) = false ↔
      (h.decay.arity = .threeProng →
        ¬ Kinematics.decayLength primary vertex.position < h.cuts.threshold j .decayLength) := by
    intro j
    unfold postFitCutsIn PostFitCuts.fallsShort
    cases h.decay.arity <;> simp
  unfold postFitFinding PassesAfterFit
  cases hbin : h.cuts.findBin (PostFitQuantities.ofVertex vertex primary).pt with
  | none =>
    have hnone := (CutTable.findBin_eq_none_iff hw.table _).mp hbin
    simp only [PostFitFinding.passes, Bool.false_eq_true, false_iff]
    rintro ⟨j, hj, _⟩
    exact hnone j hj
  | some bin =>
    have hin := (CutTable.findBin_eq_some_iff hw.table _ bin).mp hbin
    have hone := CutTable.inBin_iff_of_findBin hw.table hbin
    simp only [PostFitFinding.passes, Bool.and_eq_true, Bool.not_eq_true', decide_eq_true_eq]
    constructor
    · rintro ⟨hpoints, hlength⟩
      exact ⟨bin.index, hin, hpoints, (hshort _).mp hlength⟩
    · rintro ⟨j, hj, hpoints, hlength⟩
      rw [(hone j).mp hj] at hpoints hlength
      exact ⟨hpoints, (hshort _).mpr hlength⟩

end DecayHypothesis

/-! ## Acceptance -/

namespace Search

variable {s : Search} (hs : s.WellFormed) {arity : Arity} {prongs : List Track}
  (h : arity.Follows (prongs.map (·.sign)))

include hs h

/-- Every hypothesis of the group takes as many tracks as the combination has. -/
theorem length_of_member {hyp : DecayHypothesis}
    (hmem : hyp ∈ (s.hypotheses.group arity).hypotheses) :
    prongs.length = hyp.decay.arity.prongs := by
  rw [(hs.hypotheses.groups arity).same_arity hyp hmem, hs.hypotheses.arities]
  exact Arity.length_of_follows h

theorem contains_candidateBefore_iff (bit : Nat) :
    (s.candidateBefore arity prongs).hypotheses.contains bit = true ↔
      s.Survives arity prongs bit := by
  have hg := hs.hypotheses.groups arity
  unfold candidateBefore Survives
  rw [Candidate.contains_before hg]
  apply exists_congr
  intro hyp
  apply and_congr_right
  intro hget
  have hmem := List.mem_of_getElem? hget
  rw [DecayHypothesis.passes_preFitFinding_iff (hg.members hyp hmem) (length_of_member hs h hmem)]

theorem contains_candidateAfter_iff (primary : Position) (vertex : FittedVertex) (bit : Nat) :
    (s.candidateAfter arity primary vertex prongs).hypotheses.contains bit = true ↔
      ∃ h, (s.hypotheses.group arity).hypotheses[bit]? = some h ∧ h.enabled = true ∧
        h.PassesBeforeFit s.preselector.ptTolerance prongs ∧
        h.PassesAfterFit primary vertex := by
  have hg := hs.hypotheses.groups arity
  unfold candidateAfter
  rw [Candidate.contains_after hg]
  apply exists_congr
  intro hyp
  apply and_congr_right
  intro hget
  have hmem := List.mem_of_getElem? hget
  rw [DecayHypothesis.passes_preFitFinding_iff (hg.members hyp hmem) (length_of_member hs h hmem),
    DecayHypothesis.passes_postFitFinding_iff (hg.members hyp hmem)]

/-- A fit is tried in debug mode, and for every hypothesis that is left. -/
theorem triesFit_iff :
    s.triesFit arity prongs = true ↔ s.mode = .debug ∨ ∃ bit, s.Survives arity prongs bit := by
  have hsome : (!(s.candidateBefore arity prongs).hypotheses.isEmpty) = true ↔
      ∃ bit, s.Survives arity prongs bit := by
    rw [Bool.not_eq_true', ← Bool.not_eq_true, HypothesisMask.isEmpty_iff,
      Classical.not_forall]
    simp only [Bool.not_eq_false, contains_candidateBefore_iff hs h]
  unfold triesFit SelectionMode.evaluates SelectionMode.isDebug
  rw [Bool.or_eq_true, hsome, decide_eq_true_iff]

/-- An evaluation accepts a combination under the hypotheses that pass all cuts. -/
theorem outcome_accepts_iff (primary : Position) (bit : Nat) :
    ((s.outcome arity primary prongs).accepted = true ∧
      (s.outcome arity primary prongs).candidate.hypotheses.contains bit = true) ↔
        s.Accepts arity primary prongs bit := by
  have htry := triesFit_iff hs h
  unfold outcome Accepts
  cases hfit : s.triesFit arity prongs with
  | false =>
    simp only [Evaluation.accepted, Bool.false_eq_true, if_false, reduceCtorEq, decide_false,
      Bool.false_and, false_and, false_iff]
    rintro ⟨hyp, hget, henabled, hbefore, _⟩
    -- Then the hypothesis survives the cuts before the fit, and there is a fit.
    have : s.triesFit arity prongs = true :=
      htry.mpr (Or.inr ⟨bit, hyp, hget, henabled, hbefore⟩)
    rw [hfit] at this
    cases this
  | true =>
    cases hvertex : s.fitter prongs with
    | none => simp [Evaluation.accepted]
    | some vertex =>
      have hcontains := contains_candidateAfter_iff hs h primary vertex bit
      simp only [Evaluation.accepted, if_true, decide_true, Bool.true_and, Option.some.injEq,
        exists_eq_left', hcontains, Bool.not_eq_true']
      constructor
      · rintro ⟨_, haccepts⟩
        exact haccepts
      · intro haccepts
        refine ⟨?_, haccepts⟩
        rw [← Bool.not_eq_true, HypothesisMask.isEmpty_iff, Classical.not_forall]
        exact ⟨bit, by rw [hcontains.mpr haccepts]; decide⟩

end Search

/-- A combination is accepted under a hypothesis exactly when the hypothesis passes
every cut, in production as in debug mode. The fitter is called once, on the tracks
of the combination, if a hypothesis passes the cuts before the fit or every cut is
evaluated, and not at all otherwise. -/
theorem a_combination_is_accepted_exactly_when_every_cut_passes {s : Search}
    (hs : s.WellFormed) {arity : Arity} {prongs : List Track}
    (h : arity.Follows (prongs.map (·.sign))) (primary : Position) :
    ∃ e, s.evaluate primary prongs = .ok e ∧
      (∀ bit, (e.accepted = true ∧ e.candidate.hypotheses.contains bit = true) ↔
        s.Accepts arity primary prongs bit) ∧
      ((s.mode = .debug ∨ ∃ bit, s.Survives arity prongs bit) →
        e.calls = [⟨prongs, s.fitter prongs⟩]) ∧
      (¬ (s.mode = .debug ∨ ∃ bit, s.Survives arity prongs bit) → e.calls = []) := by
  refine ⟨s.outcome arity primary prongs, Search.evaluate_eq hs h primary,
    Search.outcome_accepts_iff hs h primary, ?_, ?_⟩
  · intro htries
    rw [Search.calls_outcome, if_pos ((Search.triesFit_iff hs h).mpr htries)]
    rfl
  · intro hskips
    rw [Search.calls_outcome, if_neg fun htries =>
      hskips ((Search.triesFit_iff hs h).mp htries)]

/-- Two tracks in the mass window, with a vertex on their line of flight. -/
theorem a_pair_in_the_window_is_accepted :
    (Sample.search false false).WellFormed ∧
      Arity.twoProng.Follows (Sample.pair.map (·.sign)) ∧
      ∃ e, (Sample.search false false).evaluate .zero Sample.pair = .ok e ∧
        e.accepted = true ∧ e.candidate.hypotheses.contains 0 = true ∧ e.calls.length = 1 := by
  have hs := Sample.search_wellFormed false false
  have hcharges : Arity.twoProng.Follows (Sample.pair.map (·.sign)) := rfl
  refine ⟨hs, hcharges, ?_⟩
  obtain ⟨e, hrun, haccepted, hcalls, _⟩ :=
    a_combination_is_accepted_exactly_when_every_cut_passes hs hcharges .zero
  have hbefore : Sample.d0.PassesBeforeFit 0.125 Sample.pair := by
    refine ⟨0, ⟨0, 100, rfl, rfl, by decide +kernel, by decide +kernel⟩, ?_, ?_⟩
    · exact Or.inr (Or.inr ⟨_, Or.inl rfl, by decide +kernel, by decide +kernel⟩)
    · rintro a b hab
      cases hab
      decide +kernel
  have hafter : Sample.d0.PassesAfterFit .zero
      ⟨⟨0.125, 0, 0⟩, [⟨1.25, 0.75, 0⟩, ⟨1.25, -0.75, 0⟩]⟩ := by
    refine ⟨0, ⟨0, 100, rfl, rfl, by decide +kernel, by decide +kernel⟩, by decide +kernel, ?_⟩
    intro hthree
    cases hthree
  have haccepts := (haccepted 0).mpr ⟨_, rfl, rfl, hbefore, _, rfl, hafter⟩
  refine ⟨e, hrun, haccepts.1, haccepts.2, ?_⟩
  rw [hcalls (Or.inr ⟨0, _, rfl, rfl, hbefore⟩)]
  rfl

end DecaySearch
