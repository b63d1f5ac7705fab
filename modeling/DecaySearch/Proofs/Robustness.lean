-- A configuration that passes its checks cannot make the search fail: it always sets up
-- a search, and that search answers every event. The checks themselves only ever refuse
-- what was written.
import DecaySearch.Proofs.Configurations
import DecaySearch.Proofs.EventSearch

namespace DecaySearch

namespace Configuration

/-! ## Checks that explain what they refuse -/

/-- A check that may refuse what was written, but never fails on its own account. -/
def Explains {α : Type} (x : Except ConfigurationError α) : Prop :=
  ∀ cause, x ≠ .error (.fault cause)

theorem explains_ok {α : Type} (a : α) : Explains (.ok a) := by
  intro cause h
  cases h

theorem explains_bind {α β : Type} {x : Except ConfigurationError α}
    {f : α → Except ConfigurationError β} (hx : Explains x) (hf : ∀ a, Explains (f a)) :
    Explains (x >>= f) := by
  cases x with
  | error e =>
    intro cause h
    cases h
    exact hx cause rfl
  | ok a => exact hf a

theorem explains_ensure (condition : Bool) {e : ConfigurationError}
    (he : ∀ cause, e ≠ .fault cause) : Explains (ensure condition e) := by
  intro cause h
  unfold ensure at h
  split at h
  · cases h
  · cases h
    exact he cause rfl

theorem explains_readRole (role : Role) (spec : RoleSpec) : Explains (readRole role spec) := by
  intro cause h
  unfold readRole at h
  split at h <;> cases h

theorem explains_readSelector (spec : TrackSelectionSpec) : Explains (readSelector spec) := by
  unfold readSelector
  refine explains_bind (explains_readRole _ _) fun _ => ?_
  refine explains_bind (explains_readRole _ _) fun _ => ?_
  exact explains_bind (explains_readRole _ _) fun _ => explains_ok _

theorem explains_readHypothesis (spec : HypothesisSpec) : Explains (readHypothesis spec) := by
  intro cause h
  unfold readHypothesis at h
  split at h
  · cases h
  · split at h <;> cases h

theorem explains_readHypotheses (seen : List Decay) (specs : List HypothesisSpec) :
    Explains (readHypotheses seen specs) := by
  induction specs generalizing seen with
  | nil => exact explains_ok _
  | cons spec rest ih =>
    unfold readHypotheses
    refine explains_bind (explains_ensure _ (by simp)) fun _ => ?_
    refine explains_bind (explains_readHypothesis _) fun _ => ?_
    exact explains_bind (ih _) fun _ => explains_ok _

/-! ## Groups in catalogue order -/

theorem decay_hypothesisOf (listed : List DecayHypothesis) (decay : Decay) :
    (hypothesisOf listed decay).decay = decay := by
  unfold hypothesisOf
  cases hfind : listed.find? (·.decay = decay) with
  | none => rfl
  | some hyp => simpa using List.find?_some hfind

/-- The catalogue lists the decays of an arity by their bits. -/
theorem bit_catalogue (arity : Arity) {i : Nat} {decay : Decay}
    (h : (Decay.catalogue arity)[i]? = some decay) : decay.bit = i := by
  have hall : ∀ p ∈ (Decay.catalogue arity).zipIdx, p.1.bit = p.2 := by
    cases arity <;> decide
  exact hall (decay, i) (List.mk_mem_zipIdx_iff_getElem?.mpr h)

/-- A decay of the catalogue stands at its place, whether it is listed or not. -/
theorem misplaced?_hypothesisOf (listed : List DecayHypothesis) (arity : Arity) {i : Nat}
    {decay : Decay} (h : (Decay.catalogue arity)[i]? = some decay) :
    HypothesisGroup.misplaced? arity (hypothesisOf listed decay) i = none := by
  unfold HypothesisGroup.misplaced?
  rw [decay_hypothesisOf, Decay.arity_of_mem_catalogue (List.mem_of_getElem? h),
    bit_catalogue arity h]
  simp

theorem exists_readGroup (listed : List DecayHypothesis) (arity : Arity) :
    ∃ group, readGroup listed arity = .ok group := by
  have hlength : ¬ HypothesisMask.capacity <
      ((Decay.catalogue arity).map (hypothesisOf listed)).length := by
    rw [List.length_map]
    cases arity <;> decide
  have hmake : ∃ group, HypothesisGroup.make arity
      ((Decay.catalogue arity).map (hypothesisOf listed)) = .ok group := by
    unfold HypothesisGroup.make
    rw [if_neg hlength]
    split
    · rename_i fault hfault
      obtain ⟨⟨hyp, i⟩, hmem, hmisplaced⟩ := List.exists_of_findSome?_eq_some hfault
      rw [List.mk_mem_zipIdx_iff_getElem?, List.getElem?_map, Option.map_eq_some_iff] at hmem
      obtain ⟨decay, hdecay, rfl⟩ := hmem
      exact absurd hmisplaced (by simp [misplaced?_hypothesisOf listed arity hdecay])
    · exact ⟨_, rfl⟩
  obtain ⟨group, hgroup⟩ := hmake
  unfold readGroup
  rw [hgroup]
  exact ⟨group, rfl⟩

theorem explains_readGroup (listed : List DecayHypothesis) (arity : Arity) :
    Explains (readGroup listed arity) := by
  obtain ⟨group, hgroup⟩ := exists_readGroup listed arity
  rw [hgroup]
  exact explains_ok group

/-! ## The whole configuration -/

theorem explains_checkFitter (settings : FitterSettings) : Explains (checkFitter settings) :=
  explains_bind (explains_ensure _ (by simp)) fun _ => explains_ensure _ (by simp)

theorem explains_checkToy (settings : ToySettings) : Explains (checkToy settings) := by
  refine explains_bind (explains_ensure _ (by simp)) fun _ => ?_
  exact explains_bind (explains_ensure _ (by simp)) fun _ => explains_ensure _ (by simp)

theorem explains_checkAnyCascades (settings : Option CascadeSettings) :
    Explains (checkAnyCascades settings) := by
  cases settings with
  | none => exact explains_ok ()
  | some settings =>
    refine explains_bind (explains_ensure _ (by simp)) fun _ => ?_
    refine explains_bind (explains_ensure _ (by simp)) fun _ => ?_
    exact explains_bind (explains_ensure _ (by simp)) fun _ => explains_ensure _ (by simp)

theorem explains_readParts (spec : ConfigurationSpec) : Explains (readParts spec) := by
  refine explains_bind (explains_readSelector _) fun _ => ?_
  refine explains_bind (explains_readHypotheses _ _) fun _ => ?_
  refine explains_bind (explains_ensure _ (by simp)) fun _ => ?_
  refine explains_bind (explains_readGroup _ _) fun _ => ?_
  exact explains_bind (explains_readGroup _ _) fun _ => explains_ok _

theorem explains_ofSpec (spec : ConfigurationSpec) : Explains (ofSpec spec) := by
  rw [ofSpec_eq]
  refine explains_bind (explains_ensure _ (by simp)) fun _ => ?_
  refine explains_bind (explains_checkFitter _) fun _ => ?_
  refine explains_bind (explains_checkToy _) fun _ => ?_
  refine explains_bind (explains_checkAnyCascades _) fun _ => ?_
  exact explains_readParts _

/-- A text is malformed, or all depends on what it specifies. -/
theorem ofText_eq (text : String) :
    ofText text = .error .malformed ∨ ∃ spec, ofText text = ofSpec spec := by
  unfold ofText
  split
  · exact .inl rfl
  · exact .inr ⟨_, rfl⟩

theorem ofSpec_of_ofText {text : String} {c : Configuration} (h : ofText text = .ok c) :
    ∃ spec, ofSpec spec = .ok c := by
  rcases ofText_eq text with hmalformed | ⟨spec, hspec⟩
  · rw [hmalformed] at h
    cases h
  · exact ⟨spec, hspec.symm.trans h⟩

end Configuration

/-! ## Every event is answered -/

theorem Search.exists_process {s : Search} (hs : s.WellFormed) (event : Event) :
    ∃ report, s.process event = .ok report := by
  cases haccepted : event.accepted with
  | true => exact ⟨_, process_eq hs haccepted⟩
  | false => exact ⟨_, process_of_rejected s haccepted⟩

/-- A checked configuration cannot crash the search. A text is malformed or specifies a
configuration. The checks refuse what is specified with an explanation or let it through, and
then there is a search, in either mode, that answers every event, whatever the fitter answers.
Each combination is evaluated, and what is said about it has its place for each hypothesis. -/
theorem a_checked_configuration_never_crashes_the_search :
    (∀ text, Configuration.ofText text = .error .malformed ∨
      ∃ spec, Configuration.ofText text = Configuration.ofSpec spec) ∧
    ∀ spec, (∀ cause, Configuration.ofSpec spec ≠ .error (.fault cause)) ∧
      ∀ c, Configuration.ofSpec spec = .ok c → ∀ debug,
        (∃ s, (c.withDebug debug).makeSearch = .ok s) ∧
        ∀ fitter, ∃ s, (c.withDebug debug).searchWith fitter = .ok s ∧
          ∀ event,
            (∃ report, s.process event = .ok report) ∧
            ∀ prongs ∈ s.formed event, ∃ e, s.evaluate event.primaryVertex prongs = .ok e ∧
              e.candidate.Sized (s.hypotheses.group (Combination.arityOf prongs)) := by
  refine ⟨Configuration.ofText_eq, fun spec => ⟨Configuration.explains_ofSpec spec, ?_⟩⟩
  intro c hspec debug
  refine ⟨Configuration.exists_searchWith hspec debug _, ?_⟩
  intro fitter
  obtain ⟨s, hs⟩ := Configuration.exists_searchWith hspec debug fitter
  have hwell := Configuration.searchWith_wellFormed hspec debug fitter hs
  refine ⟨s, hs, fun event => ⟨Search.exists_process hwell event, ?_⟩⟩
  intro prongs hprongs
  have hfollows := Search.follows_of_mem_formed hprongs
  exact ⟨_, Search.evaluate_eq hwell hfollows event.primaryVertex,
    Search.sized_outcome hwell _ event.primaryVertex prongs⟩

namespace Sample

/-- One wide bin for every role, and one decay. -/
def configurationText : String := "
  track_selection:
    two_prong:
      dca:
        pt_bins: [0, 100]
        labels: [min_dcaxytoprimary, max_dcaxytoprimary]
        rows: [[0, 10]]
    three_prong:
      dca:
        pt_bins: [0, 100]
        labels: [min_dcaxytoprimary, max_dcaxytoprimary]
        rows: [[0, 10]]
    bachelor:
      dca:
        pt_bins: [0, 100]
        labels: [min_dcaxytoprimary, max_dcaxytoprimary]
        rows: [[0, 10]]
  hypotheses:
    - decay: D0ToPiK
      cuts:
        pt_bins: [0, 100]
        labels: [massMin, massMax, d0d0, cosp]
        rows: [[1.5, 2.5, 0.1, 0.9]]"

/-- A text is read by its characters. -/
theorem exists_ofText_ofList {characters : List Char} {p : Configuration → Prop}
    [DecidablePred p] (hprintable : characters.all Text.Yaml.isPrintable = true)
    (hread : (((Text.Yaml.tokens? (Text.Yaml.unifyBreaks characters)).bind
      Text.Yaml.ofTokens?).bind ConfigurationSpec.decode).any
        (fun spec => (Configuration.ofSpec spec).toOption.any fun c => decide (p c)) = true) :
    ∃ c, Configuration.ofText (String.ofList characters) = .ok c ∧ p c := by
  obtain ⟨spec, hspec, hread⟩ := (Option.any_eq_true _ _).mp hread
  have htext : Configuration.ofText (String.ofList characters) = Configuration.ofSpec spec := by
    unfold Configuration.ofText Text.Yaml.ofText?
    rw [String.toList_ofList, if_pos hprintable, hspec]
  rw [htext]
  cases hc : Configuration.ofSpec spec with
  | error e =>
    rw [hc] at hread
    cases hread
  | ok c =>
    rw [hc] at hread
    exact ⟨c, rfl, of_decide_eq_true hread⟩

set_option maxRecDepth 4000 in
theorem ofText_configurationText :
    ∃ c, Configuration.ofText configurationText = .ok c ∧ c.toy = .standard := by
  unfold configurationText
  apply exists_ofText_ofList
  · decide +kernel
  · decide +kernel

end Sample

theorem a_written_configuration_searches_a_pair :
    ∃ spec c, Configuration.ofText Sample.configurationText = Configuration.ofSpec spec ∧
      Configuration.ofSpec spec = .ok c ∧
      ∃ s, (c.withDebug true).searchWith Sample.fitter = .ok s ∧
        ∃ report, s.process Sample.event = .ok report := by
  obtain ⟨htexts, hspecs⟩ := a_checked_configuration_never_crashes_the_search
  obtain ⟨c, hc, _⟩ := Sample.ofText_configurationText
  rcases htexts Sample.configurationText with hmalformed | ⟨spec, hspec⟩
  · rw [hmalformed] at hc
    cases hc
  · have hc' : Configuration.ofSpec spec = .ok c := hspec.symm.trans hc
    obtain ⟨s, hs, hevents⟩ := ((hspecs spec).2 c hc' true).2 Sample.fitter
    exact ⟨spec, c, hspec, hc', s, hs, (hevents Sample.event).1⟩

end DecaySearch
