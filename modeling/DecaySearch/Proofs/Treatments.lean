-- What can become of a candidate. Whatever the selections do to it, and in whatever order,
-- the mask and the status bytes tell the same story, and nothing that was lost comes back.
import DecaySearch.Proofs.FirstPlaces
import DecaySearch.Proofs.StatusBytes

namespace DecaySearch

/-! ## Treatments of a candidate -/

/-- One thing that is done to a candidate. -/
inductive Treatment
  | preselect (selector : Preselector)
  | fit (vertex : FittedVertex)
  | postselect (mode : SelectionMode) (primary : Position)
  | reject (bit : Nat) (stage : CutStage)

namespace Treatment

def apply (group : HypothesisGroup) (c : Candidate) : Treatment → Except Fault Candidate
  | .preselect selector => selector.preselect group c
  | .fit vertex => .ok { c with vertex := some vertex }
  | .postselect mode primary => Postselector.postselect mode group c primary
  | .reject bit stage => c.reject bit stage

/-- Truth that a candidate has a vertex after a treatment. -/
def fitted : Treatment → Bool → Bool
  | .fit _, _ => true
  | _, before => before

/-- A treatment may come next: the cuts after the fit need a vertex, and only an enabled
hypothesis is rejected. -/
def Allowed (group : HypothesisGroup) (fitted : Bool) : Treatment → Prop
  | .preselect _ => True
  | .fit _ => True
  | .postselect _ _ => fitted = true
  | .reject bit _ => ∃ h, group.hypotheses[bit]? = some h ∧ h.enabled = true

/-- Each treatment may follow the ones before it. -/
def AllAllowed (group : HypothesisGroup) : Bool → List Treatment → Prop
  | _, [] => True
  | fitted, t :: rest => t.Allowed group fitted ∧ AllAllowed group (t.fitted fitted) rest

/-- Does one thing after the other to a candidate. -/
def run (group : HypothesisGroup) (treatments : List Treatment) (c : Candidate) :
    Except Fault Candidate :=
  treatments.foldlM (apply group) c

end Treatment

/-! ## What may become of a verdict -/

/-- A verdict comes from another one by rejections and recorded mass matches. -/
inductive Verdict.Leads : Verdict → Verdict → Prop
  | refl (v : Verdict) : Leads v v
  | reject {v w : Verdict} (stage : CutStage) (h : Leads v w) : Leads v (w.reject stage)
  | withMatch {v w : Verdict} (m : PermutationMatch) (h : Leads v w) : Leads v (w.withMatch m)

/-- A hypothesis is alive exactly if it is enabled and has failed no cut. -/
def Verdict.Fits (h : DecayHypothesis) (v : Verdict) : Prop :=
  v.alive = (h.enabled && decide (v.status = .allPassed))

namespace Verdict

theorem Leads.trans {u v w : Verdict} (huv : u.Leads v) (hvw : v.Leads w) : u.Leads w := by
  induction hvw with
  | refl => exact huv
  | reject stage _ ih => exact ih.reject stage
  | withMatch m _ ih => exact ih.withMatch m

theorem fail_ne_allPassed (s : CutStatus) (stage : CutStage) : s.fail stage ≠ .allPassed := by
  intro hall
  have hpassed := CutStatus.passed_fail s stage stage
  rw [hall] at hpassed
  cases stage <;> simp [CutStatus.allPassed, CutStatus.passed] at hpassed

theorem Leads.fits {h : DecayHypothesis} {v w : Verdict} (hvw : v.Leads w) (hv : v.Fits h) :
    w.Fits h := by
  induction hvw with
  | refl => exact hv
  | @reject w stage _ _ =>
    unfold Fits Verdict.reject
    rw [decide_eq_false (fail_ne_allPassed w.status stage), Bool.and_false]
  | withMatch m _ ih => exact ih

theorem Leads.alive {v w : Verdict} (hvw : v.Leads w) (hw : w.alive = true) : v.alive = true := by
  induction hvw with
  | refl => exact hw
  | reject stage _ _ => cases hw
  | withMatch m _ ih => exact ih hw

theorem Leads.failed {v w : Verdict} (hvw : v.Leads w) : v.status.failed ⊆ w.status.failed := by
  induction hvw with
  | refl => exact List.Subset.refl _
  | @reject w stage _ ih =>
    intro other hother
    have hbefore := (CutStatus.mem_failed_iff w.status other).mp (ih hother)
    rw [CutStatus.mem_failed_iff]
    change (w.status.fail stage).passed other = false
    rw [CutStatus.passed_fail, hbefore, Bool.false_and]
  | withMatch m _ ih => exact ih

theorem leads_recordMass (v : Verdict) (matched : PermutationMatch) :
    v.Leads (v.recordMass matched) := by
  unfold recordMass
  split
  · exact (Leads.refl v).withMatch matched
  · exact ((Leads.refl v).withMatch matched).reject .mass

theorem leads_rejectIf (mode : SelectionMode) (fails : Bool) (v : Verdict) (stage : CutStage) :
    v.Leads (v.rejectIf mode fails stage) := by
  unfold rejectIf
  split
  · exact (Leads.refl v).reject stage
  · exact Leads.refl v

theorem leads_turn (judged : DecayHypothesis → Verdict → Verdict)
    (hjudged : ∀ h v, Leads v (judged h v)) (mode : SelectionMode) (h : DecayHypothesis)
    (v : Verdict) : v.Leads (Candidate.turn mode judged h v) := by
  unfold Candidate.turn
  split
  · exact hjudged h v
  · exact Leads.refl v

theorem leads_judgedBefore (mode : SelectionMode) (q : PreFitQuantities) (h : DecayHypothesis)
    (v : Verdict) : v.Leads (h.judgedBefore mode q v) := by
  refine leads_turn (fun h v => (h.preFitFinding q).judge mode v) (fun h v => ?_) mode h v
  cases h.preFitFinding q with
  | noBin => exact ((Leads.refl v).reject .preFitPt).withMatch .none
  | tested matched exceeds => exact (leads_recordMass v matched).trans (leads_rejectIf mode _ _ _)

theorem leads_judgedAfter (mode : SelectionMode) (q : PostFitQuantities) (h : DecayHypothesis)
    (v : Verdict) : v.Leads (h.judgedAfter mode q v) := by
  refine leads_turn (fun h v => (h.postFitFinding q).judge mode v) (fun h v => ?_) mode h v
  cases h.postFitFinding q with
  | noBin => exact (Leads.refl v).reject .postFitPt
  | tested points short => exact (leads_rejectIf mode _ v _).trans (leads_rejectIf mode _ _ _)

end Verdict

/-! ## What may become of all verdicts -/

section

open List (Forall₂)

/-- A pass that leads each verdict on leads all of them on. -/
theorem leads_zipWith {judged : DecayHypothesis → Verdict → Verdict}
    (hjudged : ∀ h v, Verdict.Leads v (judged h v)) {hypotheses : List DecayHypothesis}
    {verdicts : List Verdict} (hlength : verdicts.length = hypotheses.length) :
    Forall₂ Verdict.Leads verdicts (List.zipWith judged hypotheses verdicts) := by
  induction verdicts generalizing hypotheses with
  | nil =>
    rw [List.zipWith_nil_right]
    exact .nil
  | cons v verdicts ih =>
    obtain ⟨h, hypotheses, rfl⟩ := List.exists_cons_of_length_eq_add_one hlength.symm
    exact .cons (hjudged h v) (ih (Nat.succ.inj hlength))

theorem leads_set (verdicts : List Verdict) (i : Nat) (v : Verdict) (stage : CutStage)
    (hv : verdicts[i]? = some v) :
    Forall₂ Verdict.Leads verdicts (verdicts.set i (v.reject stage)) := by
  induction verdicts generalizing i with
  | nil => exact .nil
  | cons first rest ih =>
    cases i with
    | zero =>
      cases hv
      exact .cons ((Verdict.Leads.refl v).reject stage)
        (List.forall₂_same.mpr fun w _ => Verdict.Leads.refl w)
    | succ i => exact .cons (Verdict.Leads.refl first) (ih i hv)

theorem fits_of_leads {hypotheses : List DecayHypothesis} {before after : List Verdict}
    (hfits : Forall₂ (fun h v => v.Fits h) hypotheses before)
    (hleads : Forall₂ Verdict.Leads before after) :
    Forall₂ (fun h v => v.Fits h) hypotheses after := by
  induction hleads generalizing hypotheses with
  | nil => exact hfits
  | cons hvw _ ih =>
    cases hfits with
    | cons hv hrest => exact .cons (hvw.fits hv) (ih hrest)

theorem leads_trans {first second third : List Verdict}
    (h12 : Forall₂ Verdict.Leads first second) (h23 : Forall₂ Verdict.Leads second third) :
    Forall₂ Verdict.Leads first third := by
  induction h12 generalizing third with
  | nil => exact h23
  | cons huv _ ih =>
    cases h23 with
    | cons hvw hrest => exact .cons (huv.trans hvw) (ih hrest)

end

/-! ## What a candidate says about its hypotheses -/

/-- The mask and the status bytes of a candidate agree about the hypotheses of its group. -/
structure Candidate.Coupled (c : Candidate) (group : HypothesisGroup) : Prop where
  one_byte : c.statusBytes.length = group.size
  mask_iff : ∀ (i : Nat) h, group.hypotheses[i]? = some h → h.enabled = true →
    (c.hypotheses.contains i = true ↔ c.statusBytes[i]? = some 0x3f)
  only_enabled : ∀ i, c.hypotheses.contains i = true →
    ∃ h, group.hypotheses[i]? = some h ∧ h.enabled = true
  six_stages : ∀ byte ∈ c.statusBytes, byte < 0x40

/-- No bit of the mask comes back, and no bit of a status byte. -/
structure Candidate.OnlyLoses (before after : Candidate) : Prop where
  mask : ∀ i, after.hypotheses.contains i = true → before.hypotheses.contains i = true
  status : ∀ (i : Nat) b, before.statusBytes[i]? = some b →
    ∃ a, after.statusBytes[i]? = some a ∧ clearedStages b ⊆ clearedStages a

namespace Candidate

variable {group : HypothesisGroup} (hg : group.WellFormed) {prongs : List Track} {arity : Arity}
  {verdicts : List Verdict} {vertex : Option FittedVertex}

theorem statusBytes_ofVerdicts :
    (ofVerdicts prongs arity verdicts vertex).statusBytes =
      verdicts.map (·.status.packed) := List.map_map

theorem getElem?_statusBytes (i : Nat) :
    (ofVerdicts prongs arity verdicts vertex).statusBytes[i]? =
      verdicts[i]?.map (·.status.packed) := by
  rw [statusBytes_ofVerdicts, List.getElem?_map]

include hg

theorem length_le_of_fits
    (hfits : List.Forall₂ (fun h v => v.Fits h) group.hypotheses verdicts) :
    verdicts.length ≤ HypothesisMask.capacity := by
  rw [← hfits.length_eq]
  exact hg.size_le

theorem coupled_of_fits
    (hfits : List.Forall₂ (fun h v => v.Fits h) group.hypotheses verdicts) :
    (ofVerdicts prongs arity verdicts vertex).Coupled group := by
  have hroom := length_le_of_fits hg hfits
  constructor
  · rw [statusBytes_ofVerdicts, List.length_map]
    exact hfits.length_eq.symm
  · intro i h hget henabled
    obtain ⟨v, hv, hfit⟩ := exists_of_forall₂ hfits hget
    unfold Verdict.Fits at hfit
    rw [henabled, Bool.true_and] at hfit
    rw [contains_iff_alive hroom, getElem?_statusBytes, hv]
    simp [hfit, CutStatus.packed_eq_iff]
  · intro i hi
    obtain ⟨v, hv, halive⟩ := (contains_iff_alive hroom i).mp hi
    obtain ⟨h, hget, hfit⟩ := exists_of_forall₂ hfits.flip hv
    change v.alive = (h.enabled && decide (v.status = .allPassed)) at hfit
    rw [halive, eq_comm, Bool.and_eq_true] at hfit
    exact ⟨h, hget, hfit.1⟩
  · intro byte hbyte
    obtain ⟨status, _, rfl⟩ := List.mem_map.mp hbyte
    exact status.packed_lt

theorem onlyLoses_of_leads {verdicts' : List Verdict} {vertex' : Option FittedVertex}
    (hfits : List.Forall₂ (fun h v => v.Fits h) group.hypotheses verdicts)
    (hleads : List.Forall₂ Verdict.Leads verdicts verdicts') :
    (ofVerdicts prongs arity verdicts vertex).OnlyLoses
      (ofVerdicts prongs arity verdicts' vertex') := by
  have hroom := length_le_of_fits hg hfits
  have hroom' := length_le_of_fits hg (fits_of_leads hfits hleads)
  constructor
  · intro i hi
    obtain ⟨w, hw, halive⟩ := (contains_iff_alive hroom' i).mp hi
    obtain ⟨v, hv, hvw⟩ := exists_of_forall₂ hleads.flip hw
    exact (contains_iff_alive hroom i).mpr ⟨v, hv, hvw.alive halive⟩
  · intro i b hb
    rw [getElem?_statusBytes, Option.map_eq_some_iff] at hb
    obtain ⟨v, hv, rfl⟩ := hb
    obtain ⟨w, hw, hvw⟩ := exists_of_forall₂ hleads hv
    refine ⟨w.status.packed, ?_, ?_⟩
    · rw [getElem?_statusBytes, hw]
      rfl
    · rw [CutStatus.clearedStages_packed, CutStatus.clearedStages_packed]
      exact hvw.failed

end Candidate

/-! ## Steps and runs -/

section

variable {group : HypothesisGroup} (hg : group.WellFormed) {prongs : List Track}
  {verdicts : List Verdict}
  (hfits : List.Forall₂ (fun h v => v.Fits h) group.hypotheses verdicts)
include hg hfits

theorem preselect_leads (hprongs : group.arity.Follows (prongs.map (·.sign)))
    (selector : Preselector) (vertex : Option FittedVertex) :
    ∃ verdicts', selector.preselect group (.ofVerdicts prongs group.arity verdicts vertex) =
        .ok (.ofVerdicts prongs group.arity verdicts' vertex) ∧
      List.Forall₂ Verdict.Leads verdicts verdicts' :=
  ⟨_, Preselector.preselect_eq hg hfits.length_eq.symm hprongs selector vertex,
    leads_zipWith (fun h v => v.leads_judgedBefore _ _ h) hfits.length_eq.symm⟩

theorem postselect_leads (mode : SelectionMode) (primary : Position) (vertex : FittedVertex) :
    ∃ verdicts',
      Postselector.postselect mode group (.ofVerdicts prongs group.arity verdicts (some vertex))
          primary =
        .ok (.ofVerdicts prongs group.arity verdicts' (some vertex)) ∧
      List.Forall₂ Verdict.Leads verdicts verdicts' :=
  ⟨_, Postselector.postselect_eq hg hfits.length_eq.symm mode primary vertex,
    leads_zipWith (fun h v => v.leads_judgedAfter _ _ h) hfits.length_eq.symm⟩

theorem reject_leads {bit : Nat} (hbit : bit < group.size) (stage : CutStage)
    (vertex : Option FittedVertex) :
    ∃ verdicts', Candidate.reject (.ofVerdicts prongs group.arity verdicts vertex) bit stage =
        .ok (.ofVerdicts prongs group.arity verdicts' vertex) ∧
      List.Forall₂ Verdict.Leads verdicts verdicts' := by
  have hv := List.getElem?_eq_getElem (Nat.lt_of_lt_of_eq hbit hfits.length_eq)
  exact ⟨_, Candidate.actsAt_reject bit stage prongs group.arity verdicts vertex _
    (Candidate.length_le_of_fits hg hfits) hv, leads_set _ _ _ _ hv⟩

end

namespace Treatment

variable {group : HypothesisGroup} (hg : group.WellFormed) {prongs : List Track}
  (hprongs : group.arity.Follows (prongs.map (·.sign)))
include hg hprongs

/-- A treatment that is allowed succeeds, and each verdict leads to the next one. -/
theorem apply_eq {verdicts : List Verdict} {vertex : Option FittedVertex}
    (hfits : List.Forall₂ (fun h v => v.Fits h) group.hypotheses verdicts) {t : Treatment}
    (hallowed : t.Allowed group vertex.isSome) :
    ∃ verdicts' vertex',
      t.apply group (.ofVerdicts prongs group.arity verdicts vertex) =
        .ok (.ofVerdicts prongs group.arity verdicts' vertex') ∧
      List.Forall₂ Verdict.Leads verdicts verdicts' ∧
      vertex'.isSome = t.fitted vertex.isSome := by
  cases t with
  | preselect selector =>
    obtain ⟨verdicts', hrun, hleads⟩ := preselect_leads hg hfits hprongs selector vertex
    exact ⟨verdicts', vertex, hrun, hleads, rfl⟩
  | fit new =>
    exact ⟨verdicts, some new, rfl, List.forall₂_same.mpr fun v _ => .refl v, rfl⟩
  | postselect mode primary =>
    obtain ⟨found, rfl⟩ := Option.isSome_iff_exists.mp hallowed
    obtain ⟨verdicts', hrun, hleads⟩ := postselect_leads hg hfits mode primary found
    exact ⟨verdicts', some found, hrun, hleads, rfl⟩
  | reject bit stage =>
    obtain ⟨h, hget, _⟩ := hallowed
    obtain ⟨verdicts', hrun, hleads⟩ :=
      reject_leads hg hfits (List.getElem?_eq_some_iff.mp hget).1 stage vertex
    exact ⟨verdicts', vertex, hrun, hleads, rfl⟩

/-- What a run makes of a candidate, and what may follow it. -/
theorem run_eq {verdicts : List Verdict} {vertex : Option FittedVertex}
    (hfits : List.Forall₂ (fun h v => v.Fits h) group.hypotheses verdicts)
    (treatments rest : List Treatment)
    (hallowed : AllAllowed group vertex.isSome (treatments ++ rest)) :
    ∃ verdicts' vertex',
      run group treatments (.ofVerdicts prongs group.arity verdicts vertex) =
        .ok (.ofVerdicts prongs group.arity verdicts' vertex') ∧
      List.Forall₂ Verdict.Leads verdicts verdicts' ∧
      AllAllowed group vertex'.isSome rest := by
  induction treatments generalizing verdicts vertex with
  | nil => exact ⟨verdicts, vertex, rfl, List.forall₂_same.mpr fun v _ => .refl v, hallowed⟩
  | cons t more ih =>
    obtain ⟨hfirst, hmore⟩ := hallowed
    obtain ⟨verdicts', vertex', hstep, hleads, hvertex⟩ := apply_eq hg hprongs hfits hfirst
    rw [← hvertex] at hmore
    obtain ⟨verdicts'', vertex'', hrun, hleads', hrest⟩ :=
      ih (fits_of_leads hfits hleads) hmore
    refine ⟨verdicts'', vertex'', ?_, leads_trans hleads hleads', hrest⟩
    unfold run at hrun ⊢
    rw [List.foldlM_cons, hstep]
    exact hrun

end Treatment

/-- The verdicts of a new candidate fit the hypotheses. -/
theorem fits_start (hypotheses : List DecayHypothesis) :
    List.Forall₂ (fun h v => v.Fits h) hypotheses
      (hypotheses.map fun h => Verdict.start h.enabled) := by
  induction hypotheses with
  | nil => exact .nil
  | cons h rest ih =>
    refine .cons ?_ ih
    unfold Verdict.Fits Verdict.start
    rw [decide_eq_true rfl, Bool.and_true]

/-! ## Mask, status and mode -/

/-- Whatever is done to a candidate, and in whatever order, its mask and its status bytes
agree about every hypothesis, and no bit that was cleared is set again. In production an
evaluation clears one stage of a hypothesis at most: the first one that debug mode clears.
So a hypothesis that has nothing cleared in one mode has nothing cleared in the other. -/
theorem mask_and_status_stay_coupled :
    (∀ group : HypothesisGroup, group.WellFormed → ∀ prongs : List Track,
      group.arity.Follows (prongs.map (·.sign)) →
      ∃ fresh, Candidate.make group prongs = .ok fresh ∧
        ∀ treatments more, Treatment.AllAllowed group false (treatments ++ more) →
          ∃ c d, Treatment.run group treatments fresh = .ok c ∧
            Treatment.run group more c = .ok d ∧
            c.Coupled group ∧ d.Coupled group ∧ c.OnlyLoses d) ∧
    (∀ s d : Search, s.WellFormed → d.DebugOf s → ∀ (arity : Arity) (prongs : List Track),
      arity.Follows (prongs.map (·.sign)) → ∀ primary,
      ∃ production debug,
        s.evaluate primary prongs = .ok production ∧ d.evaluate primary prongs = .ok debug ∧
        production.candidate.statusBytes.length = (s.hypotheses.group arity).size ∧
        debug.candidate.statusBytes.length = (s.hypotheses.group arity).size ∧
        ∀ (i : Nat) b b', production.candidate.statusBytes[i]? = some b →
          debug.candidate.statusBytes[i]? = some b' →
          (clearedStages b).length ≤ 1 ∧
          (∀ stage ∈ clearedStages b, (clearedStages b').head? = some stage) ∧
          (clearedStages b = [] ↔ clearedStages b' = [])) := by
  constructor
  · intro group hg prongs hprongs
    refine ⟨_, Candidate.make_eq hg hprongs, fun treatments more hallowed => ?_⟩
    have hfresh := fits_start group.hypotheses
    change Treatment.AllAllowed group (none : Option FittedVertex).isSome _ at hallowed
    obtain ⟨verdicts, vertex, hrun, hleads, hrest⟩ :=
      Treatment.run_eq hg hprongs hfresh treatments more hallowed
    have hfits := fits_of_leads hfresh hleads
    obtain ⟨verdicts', vertex', hrun', hleads', _⟩ :=
      Treatment.run_eq hg hprongs hfits more [] (by rwa [List.append_nil])
    exact ⟨_, _, hrun, hrun', Candidate.coupled_of_fits hg hfits,
      Candidate.coupled_of_fits hg (fits_of_leads hfits hleads'),
      Candidate.onlyLoses_of_leads hg hfits hleads'⟩
  · intro s d hs hd arity prongs hprongs primary
    refine ⟨_, _, Search.evaluate_eq hs hprongs primary,
      Search.evaluate_eq (hd.wellFormed hs) hprongs primary, ?_, ?_, ?_⟩
    · exact Search.length_statusBytes_outcome hs arity primary prongs
    · rw [← hd.hypotheses]
      exact Search.length_statusBytes_outcome (hd.wellFormed hs) arity primary prongs
    · intro i b b' hb hb'
      have hfirst : clearedStages b = (clearedStages b').take 1 := by
        have hall := congrArg (·[i]?) (Search.clearedStages_outcome hd hs arity primary prongs)
        simpa only [List.getElem?_map, hb, hb', Option.map_some, Option.some.injEq] using hall
      rw [hfirst]
      cases clearedStages b' with
      | nil => simp
      | cons stage rest => simp

/-- A pair whose mass was rejected is fitted and selected after all, in vain. -/
theorem a_rejected_pair_stays_rejected :
    Sample.hypotheses.twoProng.WellFormed ∧
      Arity.twoProng.Follows (Sample.pair.map (·.sign)) ∧
      (Sample.search false false).WellFormed ∧
      (Sample.search true false).DebugOf (Sample.search false false) ∧
      (∃ fresh c d, Candidate.make Sample.hypotheses.twoProng Sample.pair = .ok fresh ∧
        Treatment.run Sample.hypotheses.twoProng [.reject 0 .mass] fresh = .ok c ∧
        Treatment.run Sample.hypotheses.twoProng
          [.preselect ⟨0.125, .debug⟩, .fit ⟨.zero, []⟩, .postselect .production .zero] c =
            .ok d ∧
        c.statusBytes = [0x3d] ∧ d.hypotheses.contains 0 = false ∧
        d.statusBytes[0]? ≠ some 0x3f) ∧
      ∃ production debug,
        (Sample.search false false).evaluate .zero Sample.pair = .ok production ∧
        (Sample.search true false).evaluate .zero Sample.pair = .ok debug ∧
        production.candidate.statusBytes.length = 1 ∧
        debug.candidate.statusBytes.length = 1 := by
  have hgroup : Sample.hypotheses.twoProng.WellFormed :=
    Sample.hypotheses_wellFormed.groups .twoProng
  have hcharges : Arity.twoProng.Follows (Sample.pair.map (·.sign)) := rfl
  have hs := Sample.search_wellFormed false false
  have hd := Search.debugOf_make (Sample.make_search false false) (Sample.make_search true false)
  obtain ⟨hruns, hmodes⟩ := mask_and_status_stay_coupled
  refine ⟨hgroup, hcharges, hs, hd, ?_, ?_⟩
  · obtain ⟨fresh, hfresh, hall⟩ := hruns Sample.hypotheses.twoProng hgroup Sample.pair hcharges
    obtain ⟨c, d, hc, hd, _, hcoupled, hloses⟩ := hall [.reject 0 .mass]
      [.preselect ⟨0.125, .debug⟩, .fit ⟨.zero, []⟩, .postselect .production .zero]
      ⟨⟨Sample.d0, rfl, rfl⟩, trivial, trivial, rfl, trivial⟩
    have hrejected : c = .ofVerdicts Sample.pair .twoProng
        [(Verdict.start true).reject .mass] none := by
      cases hfresh
      cases hc
      rfl
    have hlost : d.hypotheses.contains 0 = false := by
      rw [← Bool.not_eq_true]
      intro hcontains
      have hback := hloses.mask 0 hcontains
      rw [hrejected] at hback
      revert hback
      decide
    refine ⟨fresh, c, d, hfresh, hc, hd, by rw [hrejected]; rfl, hlost, ?_⟩
    intro hpassed
    have hcontains := (hcoupled.mask_iff 0 Sample.d0 rfl rfl).mpr hpassed
    rw [hlost] at hcontains
    cases hcontains
  · obtain ⟨production, debug, hproduction, hdebug, hlength, hlength', _⟩ :=
      hmodes _ _ hs hd .twoProng Sample.pair hcharges .zero
    exact ⟨production, debug, hproduction, hdebug, hlength, hlength'⟩

end DecaySearch
