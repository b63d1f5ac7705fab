-- A configuration that passes its checks sets up a well-formed search, so that what
-- holds of well-formed searches holds of every search that a run performs.
import DecaySearch.Configuration
import DecaySearch.Toy.Generator
import DecaySearch.Proofs.WellFormed

namespace DecaySearch

/-! ## Tables -/

theorem CutTable.ofSpec_wellFormed {spec : CutTableSpec} {required : List CutVariable}
    {t : CutTable} (h : ofSpec spec required = .ok t) :
    t.WellFormed ∧ ∀ v ∈ required, t.has v = true := by
  unfold ofSpec at h
  split at h
  · cases h
  · exact make_wellFormed h

namespace Configuration

/-! ## Tracks -/

theorem readRole_wellFormed {role : Role} {spec : RoleSpec} {cuts : RoleCuts}
    (h : readRole role spec = .ok cuts) : cuts.WellFormed := by
  unfold readRole at h
  split at h
  · cases h
  · rename_i dca hdca
    cases h
    obtain ⟨htable, hcolumns⟩ := CutTable.ofSpec_wellFormed hdca
    exact ⟨htable, hcolumns⟩

theorem readSelector_wellFormed {spec : TrackSelectionSpec} {selector : TrackSelector}
    (h : readSelector spec = .ok selector) : selector.WellFormed := by
  unfold readSelector at h
  obtain ⟨twoProng, htwo, h⟩ := steps_of_bind_eq_ok h
  obtain ⟨threeProng, hthree, h⟩ := steps_of_bind_eq_ok h
  obtain ⟨bachelor, hbachelor, h⟩ := steps_of_bind_eq_ok h
  cases h
  intro role
  cases role
  · exact readRole_wellFormed htwo
  · exact readRole_wellFormed hthree
  · exact readRole_wellFormed hbachelor

/-! ## Hypotheses -/

theorem readHypothesis_wellFormed {spec : HypothesisSpec} {hyp : DecayHypothesis}
    (h : readHypothesis spec = .ok hyp) : hyp.WellFormed := by
  unfold readHypothesis at h
  split at h
  · cases h
  · rename_i cuts hcuts
    split at h
    · cases h
    · rename_i made hmade
      cases h
      exact DecayHypothesis.make_wellFormed (CutTable.ofSpec_wellFormed hcuts).1 hmade

theorem readHypotheses_wellFormed {seen : List Decay} {specs : List HypothesisSpec}
    {listed : List DecayHypothesis} (h : readHypotheses seen specs = .ok listed) :
    ∀ hyp ∈ listed, hyp.WellFormed := by
  induction specs generalizing seen listed with
  | nil =>
    cases h
    simp
  | cons spec rest ih =>
    unfold readHypotheses at h
    obtain ⟨_, _, h⟩ := steps_of_bind_eq_ok h
    obtain ⟨first, hfirst, h⟩ := steps_of_bind_eq_ok h
    obtain ⟨others, hothers, h⟩ := steps_of_bind_eq_ok h
    cases h
    intro hyp hmem
    rcases List.mem_cons.mp hmem with rfl | hmem
    · exact readHypothesis_wellFormed hfirst
    · exact ih hothers hyp hmem

theorem unusedCuts_wellFormed (decay : Decay) :
    DecayHypothesis.WellFormed ⟨decay, false, unusedCuts decay.arity⟩ := by
  have hdefect : ∀ arity : Arity, CutTable.defect? [0, 1] arity.requiredCuts
      [arity.requiredCuts.map fun _ => 0] arity.requiredCuts = none := by
    intro arity
    cases arity <;> decide
  obtain ⟨htable, hcolumns⟩ := (CutTable.defect?_eq_none_iff _ _ _ _).mp (hdefect decay.arity)
  refine ⟨htable, fun v hv => ?_⟩
  simpa [CutTable.has, unusedCuts] using hcolumns v hv

theorem hypothesisOf_wellFormed {listed : List DecayHypothesis}
    (h : ∀ hyp ∈ listed, hyp.WellFormed) (decay : Decay) :
    (hypothesisOf listed decay).WellFormed := by
  unfold hypothesisOf
  cases hfind : listed.find? (·.decay = decay) with
  | none => exact unusedCuts_wellFormed decay
  | some hyp => exact h hyp (List.mem_of_find?_eq_some hfind)

theorem readGroup_wellFormed {listed : List DecayHypothesis}
    (hlisted : ∀ hyp ∈ listed, hyp.WellFormed) {arity : Arity} {group : HypothesisGroup}
    (h : readGroup listed arity = .ok group) : group.WellFormed ∧ group.arity = arity := by
  unfold readGroup at h
  split at h
  · cases h
  · rename_i made hmade
    cases h
    refine HypothesisGroup.make_wellFormed ?_ hmade
    intro hyp hmem
    obtain ⟨decay, _, rfl⟩ := List.mem_map.mp hmem
    exact hypothesisOf_wellFormed hlisted decay

/-! ## The whole configuration -/

/-- The parts of a configuration that are built from tables. -/
def readParts (spec : ConfigurationSpec) : Except ConfigurationError Configuration := do
  let selector ← readSelector spec.tracks
  let listed ← readHypotheses [] spec.hypotheses
  ensure (listed.any (·.enabled)) .nothingEnabled
  let twoProng ← readGroup listed .twoProng
  let threeProng ← readGroup listed .threeProng
  pure
    { search := spec.search
      fitter := spec.fitter
      selector
      hypotheses := { twoProng, threeProng }
      cascades := spec.cascades
      toy := spec.toy }

/-- The check of the cascades is skipped if there are none. -/
def checkAnyCascades : Option CascadeSettings → Except ConfigurationError Unit
  | none => .ok ()
  | some settings => checkCascades settings

/-- Numbers are checked first, and then the tables are read. -/
theorem ofSpec_eq (spec : ConfigurationSpec) :
    ofSpec spec = (do
      ensure (spec.search.ptTolerance.isFinite && 0 ≤ spec.search.ptTolerance)
        (.tolerance spec.search.ptTolerance)
      checkFitter spec.fitter
      checkToy spec.toy
      checkAnyCascades spec.cascades
      readParts spec) := by
  unfold ofSpec readParts checkAnyCascades
  cases spec.cascades <;> rfl

theorem of_ensure_eq_ok {condition : Bool} {e : ConfigurationError} {u : Unit}
    (h : ensure condition e = .ok u) : condition = true := by
  unfold ensure at h
  split at h
  · assumption
  · cases h

theorem ensure_eq_ok_iff {condition : Bool} {e : ConfigurationError} {u : Unit} :
    ensure condition e = .ok u ↔ condition = true := by
  constructor
  · exact of_ensure_eq_ok
  · rintro rfl
    rfl

theorem ofSpec_eq_ok {spec : ConfigurationSpec} {c : Configuration} (h : ofSpec spec = .ok c) :
    (spec.search.ptTolerance.isFinite && 0 ≤ spec.search.ptTolerance) = true ∧
      checkToy spec.toy = .ok () ∧ readParts spec = .ok c := by
  rw [ofSpec_eq] at h
  obtain ⟨_, htolerance, h⟩ := steps_of_bind_eq_ok h
  obtain ⟨_, _, h⟩ := steps_of_bind_eq_ok h
  obtain ⟨_, htoy, h⟩ := steps_of_bind_eq_ok h
  obtain ⟨_, _, h⟩ := steps_of_bind_eq_ok h
  exact ⟨of_ensure_eq_ok htolerance, htoy, h⟩

/-- What the checks of a configuration let through is well-formed, and its settings are
those that were written. -/
theorem readParts_wellFormed {spec : ConfigurationSpec} {c : Configuration}
    (h : readParts spec = .ok c) :
    c.selector.WellFormed ∧ c.hypotheses.WellFormed ∧ c.search = spec.search ∧
      c.toy = spec.toy := by
  unfold readParts at h
  obtain ⟨selector, hselector, h⟩ := steps_of_bind_eq_ok h
  obtain ⟨listed, hlisted, h⟩ := steps_of_bind_eq_ok h
  obtain ⟨_, _, h⟩ := steps_of_bind_eq_ok h
  obtain ⟨twoProng, htwo, h⟩ := steps_of_bind_eq_ok h
  obtain ⟨threeProng, hthree, h⟩ := steps_of_bind_eq_ok h
  cases h
  have hmembers := readHypotheses_wellFormed hlisted
  obtain ⟨hgroup2, harity2⟩ := readGroup_wellFormed hmembers htwo
  obtain ⟨hgroup3, harity3⟩ := readGroup_wellFormed hmembers hthree
  refine ⟨readSelector_wellFormed hselector, ⟨?_, ?_⟩, rfl, rfl⟩
  · intro arity
    cases arity
    · exact hgroup2
    · exact hgroup3
  · intro arity
    cases arity
    · exact harity2
    · exact harity3

theorem ofSpec_wellFormed {spec : ConfigurationSpec} {c : Configuration}
    (h : ofSpec spec = .ok c) : c.selector.WellFormed ∧ c.hypotheses.WellFormed := by
  obtain ⟨hselector, hhypotheses, _⟩ := readParts_wellFormed (ofSpec_eq_ok h).2.2
  exact ⟨hselector, hhypotheses⟩

/-- A checked configuration sets up a search, with or without debug mode and whatever fits
its vertices. -/
theorem exists_searchWith {spec : ConfigurationSpec} {c : Configuration}
    (hc : ofSpec spec = .ok c) (debug : Bool) (fitter : Fitter) :
    ∃ s, (c.withDebug debug).searchWith fitter = .ok s := by
  obtain ⟨htolerance, _, hparts⟩ := ofSpec_eq_ok hc
  obtain ⟨_, _, hsettings, _⟩ := readParts_wellFormed hparts
  rw [← hsettings] at htolerance
  unfold searchWith Search.make Preselector.make
  rw [show (c.withDebug debug).search.ptTolerance = c.search.ptTolerance from rfl,
    if_pos htolerance]
  exact ⟨_, rfl⟩

/-- The generator of toy events of a checked configuration can be set up. -/
theorem makeToy_eq {spec : ConfigurationSpec} {c : Configuration} (hc : ofSpec spec = .ok c) :
    Toy.Generator.make c.toy = .ok ⟨c.toy⟩ := by
  obtain ⟨_, htoy, hparts⟩ := ofSpec_eq_ok hc
  obtain ⟨_, _, _, hsettings⟩ := readParts_wellFormed hparts
  unfold checkToy at htoy
  obtain ⟨_, hrange, _⟩ := steps_of_bind_eq_ok htoy
  rw [← hsettings] at hrange
  unfold Toy.Generator.make
  rw [if_pos (of_ensure_eq_ok hrange)]

/-- Every search of a checked configuration is well-formed. -/
theorem searchWith_wellFormed {spec : ConfigurationSpec} {c : Configuration}
    (hc : ofSpec spec = .ok c) (debug : Bool) (fitter : Fitter) {s : Search}
    (h : (c.withDebug debug).searchWith fitter = .ok s) : s.WellFormed := by
  obtain ⟨hselector, hhypotheses⟩ := ofSpec_wellFormed hc
  exact Search.make_wellFormed hselector hhypotheses h

end Configuration

end DecaySearch
