-- Selections that are repeated. A second pass starts from what the first one has left over and
-- finds nothing new, whatever was done to the candidate before.
import DecaySearch.Proofs.Treatments

namespace DecaySearch

/-! ## A hypothesis that is judged twice -/

/-- What is found before the fit makes no difference the second time. -/
theorem PreFitFinding.judge_judge (mode : SelectionMode) (v : Verdict) (f : PreFitFinding) :
    f.judge mode (f.judge mode v) = f.judge mode v := by
  rcases v with ⟨alive, before, status⟩
  cases f with
  | noBin => rfl
  | tested matched exceeds =>
    cases mode <;> cases alive <;> cases matched <;> cases exceeds <;> rfl

/-- What is found after the fit makes no difference the second time. In production a hypothesis
that has failed is not looked at again, so its later failures stay unknown. -/
theorem PostFitFinding.judge_judge (mode : SelectionMode) (v : Verdict) (f : PostFitFinding) :
    f.judge mode (f.judge mode v) = f.judge mode v := by
  rcases v with ⟨alive, matched, status⟩
  cases f with
  | noBin => rfl
  | tested points short => cases mode <;> cases alive <;> cases points <;> cases short <;> rfl

/-- A turn makes no difference the second time if what it is about makes none. -/
theorem Candidate.turn_turn (judged : DecayHypothesis → Verdict → Verdict)
    (hjudged : ∀ h v, judged h (judged h v) = judged h v) (mode : SelectionMode)
    (h : DecayHypothesis) (v : Verdict) :
    turn mode judged h (turn mode judged h v) = turn mode judged h v := by
  unfold turn
  by_cases hlooks : (h.enabled && mode.evaluates v.alive) = true
  · rw [if_pos hlooks, hjudged, ite_self]
  · rw [if_neg hlooks, if_neg hlooks]

namespace DecayHypothesis

theorem judgedBefore_judgedBefore (mode : SelectionMode) (q : PreFitQuantities)
    (h : DecayHypothesis) (v : Verdict) :
    h.judgedBefore mode q (h.judgedBefore mode q v) = h.judgedBefore mode q v :=
  Candidate.turn_turn (fun h v => (h.preFitFinding q).judge mode v)
    (fun h v => PreFitFinding.judge_judge mode v (h.preFitFinding q)) mode h v

theorem judgedAfter_judgedAfter (mode : SelectionMode) (q : PostFitQuantities)
    (h : DecayHypothesis) (v : Verdict) :
    h.judgedAfter mode q (h.judgedAfter mode q v) = h.judgedAfter mode q v :=
  Candidate.turn_turn (fun h v => (h.postFitFinding q).judge mode v)
    (fun h v => PostFitFinding.judge_judge mode v (h.postFitFinding q)) mode h v

theorem matched_judgedAfter (mode : SelectionMode) (q : PostFitQuantities) (h : DecayHypothesis)
    (v : Verdict) : (h.judgedAfter mode q v).matched = v.matched := by
  unfold judgedAfter
  split
  · exact PostFitFinding.matched_judge mode v _
  · rfl

end DecayHypothesis

/-! ## All hypotheses of a candidate -/

section

variable {α β γ : Type}

/-- What makes no difference to an element the second time makes none to a list. -/
theorem zipWith_zipWith_self {g : α → β → β} (h : ∀ x y, g x (g x y) = g x y) (xs : List α)
    (ys : List β) : List.zipWith g xs (List.zipWith g xs ys) = List.zipWith g xs ys := by
  induction xs generalizing ys with
  | nil => rfl
  | cons x xs ih =>
    cases ys with
    | nil => rfl
    | cons y ys => rw [List.zipWith_cons_cons, List.zipWith_cons_cons, h, ih]

/-- What is not seen of the elements is not seen of the lists. -/
theorem map_zipWith_right {g : α → β → β} {view : β → γ} (h : ∀ x y, view (g x y) = view y)
    {xs : List α} {ys : List β} (hlength : ys.length ≤ xs.length) :
    (List.zipWith g xs ys).map view = ys.map view := by
  induction ys generalizing xs with
  | nil => simp
  | cons y ys ih =>
    cases xs with
    | nil => simp at hlength
    | cons x xs =>
      rw [List.zipWith_cons_cons, List.map_cons, List.map_cons, h,
        ih (Nat.le_of_succ_le_succ hlength)]

end

/-! ## Every state of a candidate -/

/-- Only a hypothesis that has a status can be rejected. -/
theorem Candidate.lt_of_reject_eq_ok {c d : Candidate} {bit : Nat} {stage : CutStage}
    (h : c.reject bit stage = .ok d) : bit < c.status.length := by
  obtain ⟨_, hbit, h⟩ := steps_of_bind_eq_ok h
  obtain ⟨_, hchange, _⟩ := steps_of_bind_eq_ok h
  obtain ⟨_, rfl⟩ := HypothesisMask.bit_eq_ok_iff.mp hbit
  obtain ⟨_, hplace, _⟩ := changeAt_eq_ok_iff.mp hchange
  exact (List.getElem?_eq_some_iff.mp hplace).1

/-- The cuts after the fit refuse a candidate that has no vertex. -/
theorem Postselector.postselect_unfitted {group : HypothesisGroup} {c : Candidate}
    (harity : c.arity = group.arity) (hvertex : c.vertex = none) (mode : SelectionMode)
    (primary : Position) : Postselector.postselect mode group c primary = .error .unfitted := by
  unfold Postselector.postselect
  rw [Candidate.ensureArity_eq_ok_iff.mpr harity, hvertex]
  rfl

namespace Treatment

variable {group : HypothesisGroup} (hg : group.WellFormed) {prongs : List Track}
  (hprongs : group.arity.Follows (prongs.map (·.sign)))
include hg hprongs

/-- A treatment that succeeds keeps the tracks, and each verdict leads to the next one. -/
theorem of_apply_eq_ok {verdicts : List Verdict} {vertex : Option FittedVertex}
    (hfits : List.Forall₂ (fun h v => v.Fits h) group.hypotheses verdicts) {t : Treatment}
    {c : Candidate} (h : t.apply group (.ofVerdicts prongs group.arity verdicts vertex) = .ok c) :
    ∃ verdicts' vertex', c = .ofVerdicts prongs group.arity verdicts' vertex' ∧
      List.Forall₂ Verdict.Leads verdicts verdicts' := by
  cases t with
  | preselect selector =>
    obtain ⟨verdicts', hrun, hleads⟩ := preselect_leads hg hfits hprongs selector vertex
    exact ⟨verdicts', vertex, Except.ok.inj (h.symm.trans hrun), hleads⟩
  | fit new =>
    exact ⟨verdicts, some new, (Except.ok.inj h).symm, List.forall₂_same.mpr fun v _ => .refl v⟩
  | postselect mode primary =>
    cases vertex with
    | none => cases h.symm.trans (Postselector.postselect_unfitted rfl rfl mode primary)
    | some found =>
      obtain ⟨verdicts', hrun, hleads⟩ := postselect_leads hg hfits mode primary found
      exact ⟨verdicts', some found, Except.ok.inj (h.symm.trans hrun), hleads⟩
  | reject bit stage =>
    -- Only a hypothesis of the group can be rejected at all.
    have hbit : bit < group.size := by
      have hlt : bit < (verdicts.map (·.status)).length := Candidate.lt_of_reject_eq_ok h
      rw [List.length_map, ← hfits.length_eq] at hlt
      exact hlt
    obtain ⟨verdicts', hrun, hleads⟩ := reject_leads hg hfits hbit stage vertex
    exact ⟨verdicts', vertex, Except.ok.inj (h.symm.trans hrun), hleads⟩

/-- A run that succeeds keeps the tracks, and each verdict leads to the next one. -/
theorem of_run_eq_ok {verdicts : List Verdict} {vertex : Option FittedVertex}
    (hfits : List.Forall₂ (fun h v => v.Fits h) group.hypotheses verdicts)
    {treatments : List Treatment} {c : Candidate}
    (h : run group treatments (.ofVerdicts prongs group.arity verdicts vertex) = .ok c) :
    ∃ verdicts' vertex', c = .ofVerdicts prongs group.arity verdicts' vertex' ∧
      List.Forall₂ Verdict.Leads verdicts verdicts' := by
  unfold run at h
  induction treatments generalizing verdicts vertex with
  | nil =>
    exact ⟨verdicts, vertex, (Except.ok.inj h).symm, List.forall₂_same.mpr fun v _ => .refl v⟩
  | cons t rest ih =>
    rw [List.foldlM_cons] at h
    obtain ⟨d, hstep, hrest⟩ := steps_of_bind_eq_ok h
    obtain ⟨verdicts', vertex', rfl, hleads⟩ := of_apply_eq_ok hg hprongs hfits hstep
    obtain ⟨verdicts'', vertex'', rfl, hleads'⟩ := ih (fits_of_leads hfits hleads) hrest
    exact ⟨verdicts'', vertex'', rfl, leads_trans hleads hleads'⟩

end Treatment

/-! ## Repetition -/

/-- A selection makes one candidate of another, and leaves the one it has made as it is. Only
verdicts are different, and only by bits that are cleared. -/
structure Candidate.SelectedBy (selection : Candidate → Except Fault Candidate)
    (before after : Candidate) : Prop where
  once : selection before = .ok after
  twice : selection after = .ok after
  prongs : after.prongs = before.prongs
  vertex : after.vertex = before.vertex
  onlyLoses : before.OnlyLoses after

/-- A selection that is repeated changes nothing. Whatever state a candidate is in, both
selections succeed, the cuts after the fit once there is a vertex, and clear nothing but bits
of the mask and of the status bytes, and a second pass over what they leave leaves it as it
is. The cuts after the fit do not touch the mass matches. -/
theorem a_repeated_selection_changes_nothing {group : HypothesisGroup} (hg : group.WellFormed)
    {prongs : List Track} (hprongs : group.arity.Follows (prongs.map (·.sign))) :
    ∃ fresh, Candidate.make group prongs = .ok fresh ∧
      ∀ treatments c, Treatment.run group treatments fresh = .ok c →
        (∀ selector : Preselector, ∃ after, c.SelectedBy (selector.preselect group) after) ∧
        (∀ mode primary, c.vertex.isSome = true → ∃ after,
          c.SelectedBy (Postselector.postselect mode group · primary) after ∧
          after.permutations = c.permutations) := by
  refine ⟨_, Candidate.make_eq hg hprongs, fun treatments c hrun => ?_⟩
  have hfresh := fits_start group.hypotheses
  obtain ⟨verdicts, vertex, rfl, hleads⟩ := Treatment.of_run_eq_ok hg hprongs hfresh hrun
  have hfits := fits_of_leads hfresh hleads
  have hlength : verdicts.length = group.size := hfits.length_eq.symm
  constructor
  · intro selector
    have hpass : ∀ verdicts : List Verdict, verdicts.length = group.size →
        selector.preselect group (.ofVerdicts prongs group.arity verdicts vertex) = .ok _ :=
      fun _ hlength => Preselector.preselect_eq hg hlength hprongs selector vertex
    have hloses := leads_zipWith (fun h v => v.leads_judgedBefore selector.mode
      (.ofProngs selector.ptTolerance prongs) h) hlength
    refine ⟨_, hpass _ hlength, ?_, rfl, rfl, Candidate.onlyLoses_of_leads hg hfits hloses⟩
    rw [hpass _ (hloses.length_eq.symm.trans hlength),
      zipWith_zipWith_self fun h v => h.judgedBefore_judgedBefore _ _ v]
  · intro mode primary hvertex
    obtain ⟨found, rfl⟩ := Option.isSome_iff_exists.mp hvertex
    have hpass : ∀ verdicts : List Verdict, verdicts.length = group.size →
        Postselector.postselect mode group
          (.ofVerdicts prongs group.arity verdicts (some found)) primary = .ok _ :=
      fun _ hlength => Postselector.postselect_eq hg hlength mode primary found
    have hloses := leads_zipWith (fun h v => v.leads_judgedAfter mode
      (.ofVertex found primary) h) hlength
    refine ⟨_, ⟨hpass _ hlength, ?_, rfl, rfl, Candidate.onlyLoses_of_leads hg hfits hloses⟩, ?_⟩
    · rw [hpass _ (hloses.length_eq.symm.trans hlength),
        zipWith_zipWith_self fun h v => h.judgedAfter_judgedAfter _ _ v]
    · exact map_zipWith_right (fun h v => h.matched_judgedAfter _ _ v) (Nat.le_of_eq hlength)

/-- A rejected pair is fitted. In debug mode each selection still looks at it, and has seen
everything after one pass. -/
theorem a_rejected_pair_is_selected_twice :
    Sample.hypotheses.twoProng.WellFormed ∧
      Arity.twoProng.Follows (Sample.pair.map (·.sign)) ∧
      ∃ fresh c, Candidate.make Sample.hypotheses.twoProng Sample.pair = .ok fresh ∧
        Treatment.run Sample.hypotheses.twoProng [.reject 0 .mass, .fit ⟨.zero, []⟩] fresh =
          .ok c ∧
        c.vertex.isSome = true ∧
        (∃ once, Preselector.preselect ⟨0.125, .debug⟩ Sample.hypotheses.twoProng c = .ok once ∧
          Preselector.preselect ⟨0.125, .debug⟩ Sample.hypotheses.twoProng once = .ok once) ∧
        ∃ once, Postselector.postselect .debug Sample.hypotheses.twoProng c .zero = .ok once ∧
          Postselector.postselect .debug Sample.hypotheses.twoProng once .zero = .ok once ∧
          clearedStages 0x3d ⊆ clearedStages (once.statusBytes.headD 0) := by
  have hgroup : Sample.hypotheses.twoProng.WellFormed :=
    Sample.hypotheses_wellFormed.groups .twoProng
  have hcharges : Arity.twoProng.Follows (Sample.pair.map (·.sign)) := rfl
  refine ⟨hgroup, hcharges, ?_⟩
  obtain ⟨fresh, hfresh, hall⟩ := a_repeated_selection_changes_nothing hgroup hcharges
  have hrun : Treatment.run Sample.hypotheses.twoProng [.reject 0 .mass, .fit ⟨.zero, []⟩]
      fresh = .ok (.ofVerdicts Sample.pair .twoProng [(Verdict.start true).reject .mass]
        (some ⟨.zero, []⟩)) := by
    cases hfresh
    rfl
  obtain ⟨hpre, hpost⟩ := hall _ _ hrun
  obtain ⟨before, hbefore⟩ := hpre ⟨0.125, .debug⟩
  obtain ⟨after, hafter, _⟩ := hpost .debug .zero rfl
  refine ⟨fresh, _, hfresh, hrun, rfl, ⟨before, hbefore.once, hbefore.twice⟩,
    after, hafter.once, hafter.twice, ?_⟩
  obtain ⟨byte, hbyte, hcleared⟩ := hafter.onlyLoses.status 0 0x3d rfl
  rw [List.headD_eq_head?_getD, List.head?_eq_getElem?, hbyte]
  exact hcleared

end DecaySearch
