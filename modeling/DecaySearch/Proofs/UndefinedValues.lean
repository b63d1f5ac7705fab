-- What an undefined quantity does to the search. Most cuts ask for a comparison to hold,
-- and no comparison holds for NaN. Two cuts ask for one not to hold: that on the product of
-- impact parameters and that on the transverse momentum of a cascade. NaN passes these two.
import DecaySearch.Proofs.FloatValues
import DecaySearch.Proofs.HypothesisTallies

namespace DecaySearch

/-! ## Values that passed a cut -/

/-- With a pointing angle, there is a decay length. -/
theorem Kinematics.isNaN_decayLength {primary secondary : Position} {p : Momentum}
    (h : (cosPointingAngle primary secondary p).isNaN = false) :
    (decayLength primary secondary).isNaN = false := by
  unfold cosPointingAngle at h
  dsimp only at h
  split at h
  · -- The angle divides by the product of the two lengths, of which one is the decay length.
    rename_i hnorms
    exact FloatOrder.isNaN_of_mul (FloatOrder.isNaN_of_lt hnorms).2
  · have hundefined : undefinedValue.isNaN = true := by decide
    rw [hundefined] at h
    cases h

theorem Cascade.isNaN_of_near {window mass nominal : Float} (h : near window mass nominal = true) :
    mass.isNaN = false := by
  have hdistance := (FloatOrder.isNaN_of_le (of_decide_eq_true h)).1
  rw [FloatOrder.isNaN_abs] at hdistance
  exact FloatOrder.isNaN_of_sub hdistance

/-- The window of a role only holds finite impact parameters. -/
theorem RoleCuts.isFinite_of_admitsDca {c : RoleCuts} (hc : c.WellFormed) {t : Track}
    (h : c.admitsDca t = true) : t.dcaXY.isFinite = true := by
  unfold admitsDca at h
  cases hbin : c.dca.findBin t.pt with
  | none =>
    rw [hbin] at h
    cases h
  | some bin =>
    rw [hbin] at h
    dsimp only at h
    rw [Bool.and_eq_true, decide_eq_true_iff, decide_eq_true_iff] at h
    have hin := (CutTable.findBin_eq_some_iff hc.table t.pt bin).mp hbin
    have hlargest := CutTable.isFinite_threshold hc.table (hc.columns .dcaXYMax (by decide)) hin
    exact FloatOrder.isFinite_of_abs_le hlargest h.2

theorem TrackSelector.isFinite_of_role {s : TrackSelector} (hs : s.WellFormed) {role : Role}
    {t : Track} (h : (s.rolesOf t).contains role = true) : t.dcaXY.isFinite = true := by
  unfold rolesOf RoleMask.contains at h
  rw [PerRole.get_map] at h
  have hdca := List.all_eq_true.mp h .dca (by decide)
  exact RoleCuts.isFinite_of_admitsDca (hs role) hdca

/-! ## Pairs and triplets -/

/-- The values that the active cuts of a hypothesis compare are numbers, the product of
impact parameters aside. If there is a mass window, a mass lies in it, and each one that
does is a number. -/
structure DecayHypothesis.ComparesNumbers (h : DecayHypothesis) (margin : Float)
    (prongs : List Track) (primary : Position) (vertex : FittedVertex) : Prop where
  ptBefore :
    (Kinematics.pt (Kinematics.totalMomentum (prongs.map (·.momentum))) + margin).isNaN = false
  mass : ∃ i,
    h.cuts.InBin i
      (Kinematics.pt (Kinematics.totalMomentum (prongs.map (·.momentum))) + margin) ∧
    ((h.preFitCutsIn i).hasMassWindow = true →
      ∃ masses, (masses = h.decay.massAssignments.1 ∨ masses = h.decay.massAssignments.2) ∧
        (h.preFitCutsIn i).admitsMass
          (Kinematics.massSquared (prongs.map (·.momentum)) masses) = true) ∧
    ∀ masses,
      (h.preFitCutsIn i).admitsMass
        (Kinematics.massSquared (prongs.map (·.momentum)) masses) = true →
      (Kinematics.massSquared (prongs.map (·.momentum)) masses).isNaN = false
  ptAfter : (Kinematics.pt (Kinematics.totalMomentum vertex.momenta)).isNaN = false
  cosPointing : (Kinematics.cosPointingAngle primary vertex.position
    (Kinematics.totalMomentum vertex.momenta)).isNaN = false
  decayLength : h.decay.arity = .threeProng →
    (Kinematics.decayLength primary vertex.position).isNaN = false

theorem CutTable.isNaN_of_inBin {t : CutTable} {i : Nat} {x : Float} (h : t.InBin i x) :
    x.isNaN = false := by
  obtain ⟨_, _, _, _, hlow, _⟩ := h
  exact (FloatOrder.isNaN_of_le hlow).2

/-- The cuts on mass and angle ask for comparisons to hold. A triplet with a pointing
angle has a decay length, so the cut on the length meets no NaN. -/
theorem DecayHypothesis.comparesNumbers {h : DecayHypothesis} {margin : Float}
    {prongs : List Track} {primary : Position} {vertex : FittedVertex}
    (hbefore : h.PassesBeforeFit margin prongs) (hafter : h.PassesAfterFit primary vertex) :
    h.ComparesNumbers margin prongs primary vertex := by
  obtain ⟨i, hin, hmass, _⟩ := hbefore
  obtain ⟨j, hin', hpoints, _⟩ := hafter
  have hcos := (FloatOrder.isNaN_of_le hpoints).2
  constructor
  · exact CutTable.isNaN_of_inBin hin
  · refine ⟨i, hin, ?_, ?_⟩
    · intro hwindow
      rw [hasMassWindow_preFitCutsIn] at hwindow
      rcases hmass with hoff | hoff | ⟨masses, hassigned, hfits⟩
      · exact absurd hoff (FloatOrder.not_lt_of_le hwindow.1)
      · exact absurd hoff (FloatOrder.not_le_of_lt hwindow.2)
      · exact ⟨masses, hassigned, (admitsMass_preFitCutsIn h i _).mpr hfits⟩
    · intro masses hfits
      exact (FloatOrder.isNaN_of_le ((admitsMass_preFitCutsIn h i _).mp hfits).1).2
  · exact CutTable.isNaN_of_inBin hin'
  · exact hcos
  · intro _
    exact Kinematics.isNaN_decayLength hcos

/-- No product of impact parameters that is NaN is too large. -/
theorem DecayHypothesis.productFits_of_isNaN (h : DecayHypothesis) (i : Nat) {a b : Track}
    (hproduct : (a.dcaXY * b.dcaXY).isNaN = true) : h.ProductFits i [a, b] := by
  intro c d hpair
  obtain ⟨rfl, rfl⟩ : a = c ∧ b = d := by simpa using hpair
  intro hlarger
  rw [(FloatOrder.isNaN_of_lt hlarger).2] at hproduct
  cases hproduct

namespace Search

variable {s : Search} (hs : s.WellFormed)

include hs

/-- Only a search that needs no roles forms pairs whose product is NaN. -/
theorem exhaustive_of_isNaN {event : Event} {a b : Track} (h : [a, b] ∈ s.formed event)
    (hproduct : (a.dcaXY * b.dcaXY).isNaN = true) :
    s.scope.exhaustive = true ∧
      ((s.selector.rolesOf a).contains .twoProngLeg &&
        (s.selector.rolesOf b).contains .twoProngLeg) = false := by
  have hroles : ((s.selector.rolesOf a).contains .twoProngLeg &&
      (s.selector.rolesOf b).contains .twoProngLeg) = false := by
    -- With the role, both impact parameters are finite, and their product is a number.
    rw [← Bool.not_eq_true, Bool.and_eq_true]
    rintro ⟨ha, hb⟩
    rw [FloatOrder.isNaN_mul_of_isFinite (TrackSelector.isFinite_of_role hs.selector ha)
      (TrackSelector.isFinite_of_role hs.selector hb)] at hproduct
    cases hproduct
  refine ⟨?_, hroles⟩
  have hallows : ∀ sign, ∀ t ∈ s.signed event sign, s.scope.allowsPair t = true →
      s.scope.exhaustive = true ∨
        (s.selector.rolesOf t.track).contains .twoProngLeg = true := by
    intro sign t ht hpair
    obtain ⟨u, _, rfl⟩ := List.mem_map.mp ht
    exact (Bool.or_eq_true _ _).mp hpair
  generalize hprongs : [a, b] = prongs at h
  cases Combination.formed_of_mem_all h with
  | secondPositive => cases hprongs
  | secondNegative => cases hprongs
  | @pair p n hp hn hpair =>
    obtain ⟨rfl, rfl⟩ : a = p.track ∧ b = n.track := by simpa using hprongs
    rcases hallows .positive p hp hpair.1 with hexhaustive | hp
    · exact hexhaustive
    rcases hallows .negative n hn hpair.2 with hexhaustive | hn
    · exact hexhaustive
    rw [hp, hn] at hroles
    cases hroles

end Search

/-! ## Cascades -/

namespace Cascade

/-- The values that the active cuts compare before a cascade is fitted are numbers. -/
structure ComparesNumbers (c : CascadeSettings) (event : Event) (bachelor : Track)
    (selected : SelectedV0) : Prop where
  v0 : ∃ positive negative,
    event.track? selected.v0.positive = some positive ∧
    event.track? selected.v0.negative = some negative ∧
    (mass [positive.momentum, negative.momentum] [Mass.pion, Mass.pion]).isNaN = false ∧
    (Kinematics.cosPointingAngle event.primaryVertex selected.v0.vertex
      (Kinematics.totalMomentum [positive.momentum, negative.momentum])).isNaN = false
  mass : 0 ≤ c.cascadeMassWindow →
    (mass [selected.line.momentum, bachelor.momentum] [Mass.k0s, Mass.proton]).isNaN = false

variable {c : CascadeSettings} {event : Event}

theorem comparesNumbers_of_selectV0 {v0 : V0} {selected : SelectedV0}
    (h : selectV0 c event v0 = some selected) :
    ∃ positive negative,
      event.track? selected.v0.positive = some positive ∧
      event.track? selected.v0.negative = some negative ∧
      (mass [positive.momentum, negative.momentum] [Mass.pion, Mass.pion]).isNaN = false ∧
      (Kinematics.cosPointingAngle event.primaryVertex selected.v0.vertex
        (Kinematics.totalMomentum [positive.momentum, negative.momentum])).isNaN = false := by
  unfold selectV0 at h
  obtain ⟨positive, hpositive, h⟩ := Option.bind_eq_some_iff.mp h
  obtain ⟨negative, hnegative, h⟩ := Option.bind_eq_some_iff.mp h
  dsimp only at h
  split at h
  · rename_i hcuts
    cases h
    simp only [Bool.and_eq_true, decide_eq_true_eq] at hcuts
    obtain ⟨⟨_, hnear⟩, hpoints⟩ := hcuts
    exact ⟨positive, negative, hpositive, hnegative, isNaN_of_near hnear,
      (FloatOrder.isNaN_of_le hpoints).2⟩
  · cases h

/-- Every pair that is fitted has passed its cuts with numbers. -/
theorem comparesNumbers_of_mem_pairs {bachelors : List Track} {bachelor : Track}
    {selected : SelectedV0} (h : (bachelor, selected) ∈ pairs c event bachelors) :
    ComparesNumbers c event bachelor selected := by
  obtain ⟨_, _, hmem⟩ := List.mem_flatMap.mp h
  obtain ⟨_, hfiltered, heq⟩ := List.mem_map.mp hmem
  cases heq
  obtain ⟨hselected, hpasses⟩ := List.mem_filter.mp hfiltered
  obtain ⟨v0, _, hv0⟩ := List.mem_filterMap.mp hselected
  constructor
  · exact comparesNumbers_of_selectV0 hv0
  · intro hactive
    unfold pairPasses massPasses at hpasses
    simp only [Bool.and_eq_true, Bool.or_eq_true, Bool.not_eq_true', decide_eq_true_eq,
      decide_eq_false_iff_not] at hpasses
    rcases hpasses.2 with hoff | hnear
    · exact absurd hactive hoff
    · exact isNaN_of_near hnear

/-- The cut after the fit only rejects a momentum that compares below it, so one that does
not compare at all passes. -/
theorem vertexPasses_iff (c : CascadeSettings) (vertex : FittedVertex) :
    vertexPasses c vertex = true ↔
      (Kinematics.pt (Kinematics.totalMomentum vertex.momenta)).isNaN = true ∨
        c.ptMin.isNaN = true ∨
        c.ptMin ≤ Kinematics.pt (Kinematics.totalMomentum vertex.momenta) := by
  unfold vertexPasses
  rw [Bool.not_eq_true', decide_eq_false_iff_not, FloatOrder.lt_iff, FloatOrder.le_iff]
  cases (Kinematics.pt (Kinematics.totalMomentum vertex.momenta)).isNaN <;>
    cases c.ptMin.isNaN <;> simp

theorem mem_rows_fitPair_iff (fitter : Fitter) (bachelor : Track) (selected : SelectedV0)
    (row : Row) :
    row ∈ (fitPair c fitter bachelor selected).rows ↔
      row = ⟨bachelor.id, selected.v0.id⟩ ∧
        ∃ vertex, fitter [selected.line, bachelor] = some vertex ∧
          vertexPasses c vertex = true := by
  unfold fitPair Fitter.call
  cases fitter [selected.line, bachelor] with
  | none => simp
  | some vertex => cases hpasses : vertexPasses c vertex <;> simp [hpasses]

/-- The rows are those of the pairs whose fit passes the last cut. -/
theorem mem_rows_search_iff (fitter : Fitter) (bachelors : List Track) (row : Row) :
    row ∈ (search c fitter event bachelors).rows ↔
      ∃ bachelor selected, (bachelor, selected) ∈ pairs c event bachelors ∧
        row = ⟨bachelor.id, selected.v0.id⟩ ∧
        ∃ vertex, fitter [selected.line, bachelor] = some vertex ∧
          vertexPasses c vertex = true := by
  unfold search
  rw [rows_fitPairs, List.mem_flatMap]
  constructor
  · rintro ⟨⟨bachelor, selected⟩, hmem, hrow⟩
    exact ⟨bachelor, selected, hmem, (mem_rows_fitPair_iff _ _ _ _).mp hrow⟩
  · rintro ⟨bachelor, selected, hmem, hrow⟩
    exact ⟨(bachelor, selected), hmem, (mem_rows_fitPair_iff _ _ _ _).mpr hrow⟩

/-- A fit that knows nothing about the momenta still makes a cascade. -/
example (bachelor : Track) (selected : SelectedV0) :
    (fitPair .standard (fun _ => some ⟨.zero, [⟨Kinematics.undefinedValue, 0, 0⟩]⟩) bachelor
      selected).rows = [⟨bachelor.id, selected.v0.id⟩] := by
  have hpasses : vertexPasses .standard ⟨.zero, [⟨Kinematics.undefinedValue, 0, 0⟩]⟩ = true := by
    decide +kernel
  unfold fitPair Fitter.call
  simp [hpasses]

end Cascade

/-! ## The whole search -/

namespace Search

variable {s : Search} (hs : s.WellFormed) (event : Event)

include hs

/-- Under each hypothesis of a row, the cuts compared numbers, apart from the product. -/
theorem comparesNumbers_of_mem_rows {arity : Arity} {bit : Nat} {row : CandidateRow}
    (hrow : row ∈ (s.report event).output.rows arity)
    (hbit : row.hypotheses.contains bit = true) :
    ∃ prongs hyp vertex, prongs ∈ s.formed event ∧ row.tracks = prongs.map (·.id) ∧
      (s.hypotheses.group arity).hypotheses[bit]? = some hyp ∧
      s.fitter prongs = some vertex ∧
      hyp.ComparesNumbers s.preselector.ptTolerance prongs event.primaryVertex vertex ∧
      ∀ a b, prongs = [a, b] → (a.dcaXY * b.dcaXY).isNaN = true →
        s.scope.exhaustive = true ∧
          ((s.selector.rolesOf a).contains .twoProngLeg &&
            (s.selector.rolesOf b).contains .twoProngLeg) = false := by
  obtain ⟨prongs, hprongs, hids, _, hyp, hget, _, hbefore, vertex, hvertex, hafter⟩ :=
    (exists_row_iff hs arity bit event row.tracks).mp ⟨row, hrow, rfl, hbit⟩
  refine ⟨prongs, hyp, vertex, hprongs, hids.symm, hget, hvertex,
    DecayHypothesis.comparesNumbers hbefore hafter, ?_⟩
  rintro a b rfl hproduct
  exact exhaustive_of_isNaN hs hprongs hproduct

/-- A pair whose product is NaN only has to pass the other cuts. -/
theorem row_of_isNaN {a b : Track} (hpair : [a, b] ∈ s.formed event)
    (hproduct : (a.dcaXY * b.dcaXY).isNaN = true) {bit i : Nat} {hyp : DecayHypothesis}
    {vertex : FittedVertex} (hget : (s.hypotheses.group .twoProng).hypotheses[bit]? = some hyp)
    (henabled : hyp.enabled = true)
    (hin : hyp.cuts.InBin i (Kinematics.pt (Kinematics.totalMomentum [a.momentum, b.momentum]) +
      s.preselector.ptTolerance))
    (hmass : hyp.MassFits i [a.momentum, b.momentum]) (hvertex : s.fitter [a, b] = some vertex)
    (hafter : hyp.PassesAfterFit event.primaryVertex vertex) :
    ∃ row ∈ (s.report event).output.rows .twoProng,
      row.tracks = [a.id, b.id] ∧ row.hypotheses.contains bit = true := by
  apply (exists_row_iff hs .twoProng bit event [a.id, b.id]).mpr
  exact ⟨[a, b], hpair, rfl, rfl, hyp, hget, henabled,
    ⟨i, hin, hmass, hyp.productFits_of_isNaN i hproduct⟩, vertex, hvertex, hafter⟩

omit hs in
theorem mem_cascades_report_iff (row : Cascade.Row) :
    row ∈ (s.report event).output.cascades ↔
      ∃ c bachelor selected vertex, s.cascades = some c ∧
        (bachelor, selected) ∈ Cascade.pairs c event (s.bachelorsOf event) ∧
        Cascade.ComparesNumbers c event bachelor selected ∧
        row = ⟨bachelor.id, selected.v0.id⟩ ∧
        s.fitter [selected.line, bachelor] = some vertex ∧
        ((Kinematics.pt (Kinematics.totalMomentum vertex.momenta)).isNaN = true ∨
          c.ptMin.isNaN = true ∨
          c.ptMin ≤ Kinematics.pt (Kinematics.totalMomentum vertex.momenta)) := by
  rw [cascades_report]
  unfold cascadesOf
  cases hcascades : s.cascades with
  | none => simp [Cascade.Output.empty]
  | some c =>
    dsimp only
    rw [Cascade.mem_rows_search_iff]
    simp only [Cascade.vertexPasses_iff]
    constructor
    · rintro ⟨bachelor, selected, hmem, hrow, vertex, hvertex, hpt⟩
      exact ⟨c, bachelor, selected, vertex, rfl, hmem,
        Cascade.comparesNumbers_of_mem_pairs hmem, hrow, hvertex, hpt⟩
    · rintro ⟨_, bachelor, selected, vertex, heq, hmem, _, hrow, hvertex, hpt⟩
      cases heq
      exact ⟨bachelor, selected, hmem, hrow, vertex, hvertex, hpt⟩

end Search

/-- Undefined values fail every cut but two. Where a row names a hypothesis, all that the
active cuts of the hypothesis compared are numbers, apart from the product of the impact
parameters of a pair, which can only be NaN if debug mode is exhaustive and a track of the
pair lacks the role. Such a product is not cut at all. Where a row names a cascade, all
that was compared before the fit are numbers, and the fitted transverse momentum is large
enough, or it is NaN, which is not cut either. -/
theorem undefined_values_fail_every_cut_but_two {selector : TrackSelector}
    {hypotheses : HypothesisSet} (hselector : selector.WellFormed)
    (hhypotheses : hypotheses.WellFormed) {fitter : Fitter} {settings : SearchSettings}
    {cascades : Option CascadeSettings} {s : Search}
    (h : Search.make selector hypotheses fitter settings cascades = .ok s) (event : Event) :
    ∃ report, s.process event = .ok report ∧
      (∀ arity bit, ∀ row ∈ report.output.rows arity, row.hypotheses.contains bit = true →
        ∃ prongs hyp vertex, prongs ∈ s.formed event ∧ row.tracks = prongs.map (·.id) ∧
          (hypotheses.group arity).hypotheses[bit]? = some hyp ∧
          fitter prongs = some vertex ∧
          hyp.ComparesNumbers settings.ptTolerance prongs event.primaryVertex vertex ∧
          ∀ a b, prongs = [a, b] → (a.dcaXY * b.dcaXY).isNaN = true →
            settings.debug = true ∧ settings.exhaustiveDebug = true ∧
              ((selector.rolesOf a).contains .twoProngLeg &&
                (selector.rolesOf b).contains .twoProngLeg) = false) ∧
      (event.accepted = true → ∀ a b, [a, b] ∈ s.formed event →
        (a.dcaXY * b.dcaXY).isNaN = true → ∀ bit hyp vertex i,
          (hypotheses.group .twoProng).hypotheses[bit]? = some hyp → hyp.enabled = true →
          hyp.cuts.InBin i
            (Kinematics.pt (Kinematics.totalMomentum [a.momentum, b.momentum]) +
              settings.ptTolerance) →
          hyp.MassFits i [a.momentum, b.momentum] →
          fitter [a, b] = some vertex → hyp.PassesAfterFit event.primaryVertex vertex →
          ∃ row ∈ report.output.rows .twoProng,
            row.tracks = [a.id, b.id] ∧ row.hypotheses.contains bit = true) ∧
      ∀ row, row ∈ report.output.cascades ↔
        event.accepted = true ∧ ∃ c bachelor selected vertex,
          cascades = some c ∧
          (bachelor, selected) ∈ Cascade.pairs c event (s.bachelorsOf event) ∧
          Cascade.ComparesNumbers c event bachelor selected ∧
          row = ⟨bachelor.id, selected.v0.id⟩ ∧
          fitter [selected.line, bachelor] = some vertex ∧
          ((Kinematics.pt (Kinematics.totalMomentum vertex.momenta)).isNaN = true ∨
            c.ptMin.isNaN = true ∨
            c.ptMin ≤ Kinematics.pt (Kinematics.totalMomentum vertex.momenta)) := by
  have hs := Search.make_wellFormed hselector hhypotheses h
  obtain rfl := Search.make_eq_ok h
  cases haccepted : event.accepted with
  | false =>
    refine ⟨_, Search.process_of_rejected _ haccepted, ?_, ?_, ?_⟩
    · intro arity bit row hrow
      cases arity <;> cases hrow
    · intro hfalse
      cases hfalse
    · intro row
      simp [EventReport.empty, EventOutput.empty]
  | true =>
    refine ⟨_, Search.process_eq hs haccepted, ?_, ?_, ?_⟩
    · intro arity bit row hrow hbit
      obtain ⟨prongs, hyp, vertex, hprongs, hids, hget, hvertex, hnumbers, hproducts⟩ :=
        Search.comparesNumbers_of_mem_rows hs event hrow hbit
      refine ⟨prongs, hyp, vertex, hprongs, hids, hget, hvertex, hnumbers, ?_⟩
      intro a b hpair hproduct
      obtain ⟨hexhaustive, hroles⟩ := hproducts a b hpair hproduct
      have hmodes := (Bool.and_eq_true _ _).mp hexhaustive
      exact ⟨hmodes.1, hmodes.2, hroles⟩
    · intro _ a b hpair hproduct bit hyp vertex i hget henabled hin hmass hvertex hafter
      exact Search.row_of_isNaN hs event hpair hproduct hget henabled hin hmass hvertex hafter
    · intro row
      rw [Search.mem_cascades_report_iff]
      simp only [true_and]

namespace Sample

/-- Two tracks of which one has no impact parameter. -/
def undefinedPair : List Track :=
  [{ track 1 .positive ⟨1.25, 0.75, 0⟩ with dcaXY := Kinematics.undefinedValue },
   track 2 .negative ⟨1.25, -0.75, 0⟩]

end Sample

/-- An exhaustive search accepts two tracks whose product of impact parameters is NaN. -/
theorem a_pair_without_impact_parameter_is_accepted :
    ∃ report, (Sample.search true true).process ⟨.zero, true, Sample.undefinedPair, []⟩ =
        .ok report ∧
      ∃ row ∈ report.output.rows .twoProng,
        row.tracks = [⟨1⟩, ⟨2⟩] ∧ row.hypotheses.contains 0 = true := by
  obtain ⟨report, hrun, _, hpairs, _⟩ :=
    undefined_values_fail_every_cut_but_two Sample.selector_wellFormed
      Sample.hypotheses_wellFormed (Sample.make_search true true)
      ⟨.zero, true, Sample.undefinedPair, []⟩
  refine ⟨report, hrun, ?_⟩
  have hformed : Sample.undefinedPair ∈
      (Sample.search true true).formed ⟨.zero, true, Sample.undefinedPair, []⟩ := by
    apply List.mem_flatMap.mpr
    decide +kernel
  have hproduct : ((Kinematics.undefinedValue : Float) * 0.125).isNaN = true := by decide +kernel
  have hafter : Sample.d0.PassesAfterFit .zero
      ⟨⟨0.125, 0, 0⟩, [⟨1.25, 0.75, 0⟩, ⟨1.25, -0.75, 0⟩]⟩ := by
    refine ⟨0, ⟨0, 100, rfl, rfl, by decide +kernel, by decide +kernel⟩, by decide +kernel, ?_⟩
    intro hthree
    cases hthree
  have hmass : Sample.d0.MassFits 0 [⟨1.25, 0.75, 0⟩, ⟨1.25, -0.75, 0⟩] :=
    Or.inr (Or.inr ⟨_, Or.inl rfl, by decide +kernel, by decide +kernel⟩)
  exact hpairs rfl _ _ hformed hproduct 0 Sample.d0 _ 0 rfl rfl
    ⟨0, 100, rfl, rfl, by decide +kernel, by decide +kernel⟩ hmass rfl hafter

end DecaySearch
