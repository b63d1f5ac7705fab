-- The hypotheses of a configuration stand on the bits of their decays, in whatever order
-- they are listed, and each listed entry is used for one bit.
import DecaySearch.Proofs.Robustness

namespace DecaySearch

namespace Configuration

/-! ## The listed hypotheses -/

/-- An entry becomes a hypothesis of its decay, with its flag and the table that it writes.
The table has the columns that the hypothesis needs, so nothing else can fail. -/
theorem readHypothesis_eq_ok_iff {entry : HypothesisSpec} {hyp : DecayHypothesis} :
    readHypothesis entry = .ok hyp ↔
      hyp.decay = entry.decay ∧ hyp.enabled = entry.enabled ∧
        CutTable.ofSpec entry.cuts entry.decay.arity.requiredCuts = .ok hyp.cuts := by
  obtain ⟨decay, enabled, table⟩ := hyp
  unfold readHypothesis
  cases hcuts : CutTable.ofSpec entry.cuts entry.decay.arity.requiredCuts with
  | error defect => simp
  | ok cuts =>
    have hcolumns := (CutTable.ofSpec_wellFormed hcuts).2
    have hmake : DecayHypothesis.make entry.decay entry.enabled cuts =
        .ok ⟨entry.decay, entry.enabled, cuts⟩ := by
      have hnone : (entry.decay.arity.requiredCuts.find? fun v => !cuts.has v) = none := by
        rw [List.find?_eq_none]
        intro v hv
        simp [hcolumns v hv]
      unfold DecayHypothesis.make
      rw [hnone]
    simp only [hmake, Except.ok.injEq, DecayHypothesis.mk.injEq, @eq_comm _ decay,
      @eq_comm _ enabled]

/-- The entries are read one by one, as long as no decay is listed twice. -/
theorem readHypotheses_eq_ok_iff {seen : List Decay} {entries : List HypothesisSpec}
    {listed : List DecayHypothesis} :
    readHypotheses seen entries = .ok listed ↔
      (entries.map (·.decay)).Nodup ∧ (∀ entry ∈ entries, entry.decay ∉ seen) ∧
        List.Forall₂ (fun entry hyp => readHypothesis entry = .ok hyp) entries listed := by
  induction entries generalizing seen listed with
  | nil =>
    unfold readHypotheses
    simp [eq_comm]
  | cons entry rest ih =>
    unfold readHypotheses
    simp only [bind_eq_ok_iff, ensure_eq_ok_iff, ih]
    constructor
    · rintro ⟨_, hunseen, hyp, hread, others, ⟨hdistinct, hrest, hothers⟩, hlisted⟩
      cases hlisted
      simp only [List.mem_cons, not_or] at hrest
      refine ⟨?_, ?_, .cons hread hothers⟩
      · rw [List.map_cons, List.nodup_cons]
        refine ⟨?_, hdistinct⟩
        rw [List.mem_map]
        rintro ⟨other, hmem, hsame⟩
        exact (hrest other hmem).1 hsame
      · rw [List.forall_mem_cons]
        exact ⟨by simpa using hunseen, fun other hmem => (hrest other hmem).2⟩
    · rintro ⟨hdistinct, hunseen, hread⟩
      rw [List.map_cons, List.nodup_cons, List.mem_map] at hdistinct
      rw [List.forall_mem_cons] at hunseen
      cases hread with
      | @cons _ hyp _ others hread hothers =>
        refine ⟨(), by simpa using hunseen.1, hyp, hread, others, ⟨hdistinct.2, ?_, hothers⟩, rfl⟩
        intro other hmem
        simp only [List.mem_cons, not_or]
        exact ⟨fun hsame => hdistinct.1 ⟨other, hmem, hsame⟩, hunseen.2 other hmem⟩

section Listed

variable {entries : List HypothesisSpec} {listed : List DecayHypothesis}
  (hlisted : readHypotheses [] entries = .ok listed)
include hlisted

theorem decays_of_readHypotheses : listed.map (·.decay) = entries.map (·.decay) := by
  have hread := (readHypotheses_eq_ok_iff.mp hlisted).2.2
  clear hlisted
  induction hread with
  | nil => rfl
  | cons h _ ih =>
    rw [List.map_cons, List.map_cons, ih, (readHypothesis_eq_ok_iff.mp h).1]

theorem nodup_decays_of_readHypotheses : (listed.map (·.decay)).Nodup := by
  rw [decays_of_readHypotheses hlisted]
  exact (readHypotheses_eq_ok_iff.mp hlisted).1

/-- Behind each entry stands its hypothesis. -/
theorem exists_hypothesis_of_mem {entry : HypothesisSpec} (hentry : entry ∈ entries) :
    ∃ hyp ∈ listed, readHypothesis entry = .ok hyp := by
  have hread := (readHypotheses_eq_ok_iff.mp hlisted).2.2
  clear hlisted
  induction hread with
  | nil => cases hentry
  | @cons first hyp rest others h _ ih =>
    rcases List.mem_cons.mp hentry with rfl | hlater
    · exact ⟨hyp, by simp, h⟩
    · obtain ⟨found, hmem, hfound⟩ := ih hlater
      exact ⟨found, by simp [hmem], hfound⟩

/-- Entries in another order give the same hypotheses in that order. -/
theorem readHypotheses_of_perm {others : List HypothesisSpec} (hperm : others.Perm entries) :
    ∃ relisted, readHypotheses [] others = .ok relisted ∧ relisted.Perm listed := by
  obtain ⟨hdistinct, _, hread⟩ := readHypotheses_eq_ok_iff.mp hlisted
  obtain ⟨relisted, hrelisted, hsame⟩ := List.perm_comp_forall₂ hperm hread
  refine ⟨relisted, readHypotheses_eq_ok_iff.mpr ⟨?_, by simp, hrelisted⟩, hsame⟩
  exact ((hperm.map _).nodup_iff).mpr hdistinct

end Listed

/-! ## The hypothesis of a decay -/

section Distinct

variable {listed : List DecayHypothesis} (hdistinct : (listed.map (·.decay)).Nodup)
include hdistinct

theorem eq_of_same_decay {a b : DecayHypothesis} (ha : a ∈ listed) (hb : b ∈ listed)
    (hsame : a.decay = b.decay) : a = b :=
  List.inj_on_of_nodup_map hdistinct ha hb hsame

theorem hypothesisOf_of_mem {hyp : DecayHypothesis} (hmem : hyp ∈ listed) :
    hypothesisOf listed hyp.decay = hyp := by
  unfold hypothesisOf
  cases hfind : listed.find? (·.decay = hyp.decay) with
  | none =>
    have hnone := List.find?_eq_none.mp hfind hyp hmem
    simp at hnone
  | some found =>
    have hdecay : found.decay = hyp.decay := by simpa using List.find?_some hfind
    exact eq_of_same_decay hdistinct (List.mem_of_find?_eq_some hfind) hmem hdecay

theorem hypothesisOf_of_perm {relisted : List DecayHypothesis} (hperm : listed.Perm relisted)
    (decay : Decay) : hypothesisOf listed decay = hypothesisOf relisted decay := by
  unfold hypothesisOf
  rw [List.find?_eq_find?_of_perm hperm]
  rintro a ⟨ha, hda⟩ b ⟨hb, hdb⟩
  simp only [decide_eq_true_eq] at hda hdb
  exact eq_of_same_decay hdistinct ha hb (hda.trans hdb.symm)

end Distinct

theorem hypothesisOf_of_unlisted {listed : List DecayHypothesis} {decay : Decay}
    (h : ∀ hyp ∈ listed, hyp.decay ≠ decay) :
    hypothesisOf listed decay = ⟨decay, false, unusedCuts decay.arity⟩ := by
  have hnone : listed.find? (·.decay = decay) = none := by
    rw [List.find?_eq_none]
    intro hyp hmem
    simpa using h hyp hmem
  unfold hypothesisOf
  rw [hnone]
  rfl

/-- What a hypothesis is made of: the entry that names its decay, if there is one. -/
structure FollowsListing (entries : List HypothesisSpec) (hyp : DecayHypothesis) : Prop where
  listed : ∀ entry ∈ entries, entry.decay = hyp.decay →
    hyp.enabled = entry.enabled ∧
      CutTable.ofSpec entry.cuts hyp.decay.arity.requiredCuts = .ok hyp.cuts
  unlisted : (∀ entry ∈ entries, entry.decay ≠ hyp.decay) → hyp.enabled = false

theorem followsListing_hypothesisOf {entries : List HypothesisSpec}
    {listed : List DecayHypothesis} (hlisted : readHypotheses [] entries = .ok listed)
    (decay : Decay) : FollowsListing entries (hypothesisOf listed decay) := by
  constructor
  · intro entry hentry hdecay
    rw [decay_hypothesisOf] at hdecay
    obtain ⟨hyp, hmem, hread⟩ := exists_hypothesis_of_mem hlisted hentry
    obtain ⟨hsame, henabled, hcuts⟩ := readHypothesis_eq_ok_iff.mp hread
    have hfound : hypothesisOf listed decay = hyp := by
      rw [← hdecay, ← hsame]
      exact hypothesisOf_of_mem (nodup_decays_of_readHypotheses hlisted) hmem
    rw [hfound, hsame]
    exact ⟨henabled, hcuts⟩
  · intro hnone
    simp only [decay_hypothesisOf] at hnone
    rw [hypothesisOf_of_unlisted]
    intro hyp hmem hdecay
    have hlistedDecay : decay ∈ entries.map (·.decay) := by
      rw [← decays_of_readHypotheses hlisted, ← hdecay]
      exact List.mem_map_of_mem hmem
    obtain ⟨entry, hentry, hsame⟩ := List.mem_map.mp hlistedDecay
    exact hnone entry hentry hsame

/-- A decay is searched for exactly if an entry names it and enables it. -/
theorem enabled_hypothesisOf_iff {entries : List HypothesisSpec}
    {listed : List DecayHypothesis} (hlisted : readHypotheses [] entries = .ok listed)
    (decay : Decay) :
    (hypothesisOf listed decay).enabled = true ↔
      ∃ entry ∈ entries, entry.decay = decay ∧ entry.enabled = true := by
  have hfollows := followsListing_hypothesisOf hlisted decay
  have hdecay := decay_hypothesisOf listed decay
  constructor
  · intro henabled
    by_contra hnone
    push Not at hnone
    rw [hfollows.unlisted] at henabled
    · cases henabled
    · intro entry hentry hsame
      have hflag := (hfollows.listed entry hentry hsame).1
      exact hnone entry hentry (hsame.trans hdecay) (hflag ▸ henabled)
  · rintro ⟨entry, hentry, rfl, henabled⟩
    rw [(hfollows.listed entry hentry hdecay.symm).1, henabled]

/-! ## Hypotheses that are taken out one by one -/

/-- Takes out the entry at a position. The last entry moves to its place. -/
def swapRemove {α : Type} (xs : List α) (i : Nat) : List α :=
  match xs.getLast? with
  | none => []
  | some last => (xs.set i last).dropLast

open scoped List in
theorem swapRemove_perm {α : Type} {xs : List α} {i : Nat} {x : α} (h : xs[i]? = some x) :
    (x :: swapRemove xs i).Perm xs := by
  obtain ⟨hi, rfl⟩ := List.getElem?_eq_some_iff.mp h
  rcases List.eq_nil_or_concat' xs with rfl | ⟨before, last, rfl⟩
  · cases hi
  have hremoved : swapRemove (before ++ [last]) i = ((before ++ [last]).set i last).dropLast := by
    simp [swapRemove]
  rw [hremoved]
  by_cases hbefore : i < before.length
  · rw [List.set_append_left _ _ hbefore, List.dropLast_concat, List.getElem_append_left hbefore]
    calc before[i] :: before.set i last
      _ ~ before[i] :: last :: before.eraseIdx i := (List.set_perm_cons_eraseIdx hbefore _).cons _
      _ ~ last :: before[i] :: before.eraseIdx i := .swap _ _ _
      _ ~ last :: before := (List.getElem_cons_eraseIdx_perm hbefore).cons _
      _ ~ before ++ [last] := (List.perm_append_singleton _ _).symm
  · have hlast : i = before.length := by
      rw [List.length_append, List.length_singleton] at hi
      omega
    subst hlast
    simpa using (List.perm_append_singleton last before).symm

/-- Takes the hypothesis of a decay out of those that are left. If there is none, the decay
gets a disabled one. -/
def takeOut (decay : Decay) : StateM (List DecayHypothesis) DecayHypothesis := fun left =>
  match left.find? (·.decay = decay) with
  | none => (⟨decay, false, unusedCuts decay.arity⟩, left)
  | some hyp => (hyp, swapRemove left (left.findIdx (·.decay = decay)))

/-- What is taken out is the hypothesis of the decay, and those of the other decays are left,
in some order. -/
theorem takeOut_run {left : List DecayHypothesis} (hdistinct : (left.map (·.decay)).Nodup)
    (decay : Decay) :
    ∃ rest, (takeOut decay).run left = (hypothesisOf left decay, rest) ∧
      rest.Perm (left.filter fun hyp => hyp.decay ≠ decay) := by
  cases hfind : left.find? (·.decay = decay) with
  | none =>
    refine ⟨left, by simp [takeOut, hypothesisOf, StateT.run, hfind], ?_⟩
    rw [List.filter_eq_self.mpr]
    intro hyp hmem
    simpa using List.find?_eq_none.mp hfind hyp hmem
  | some hyp =>
    have hplace : left[left.findIdx (·.decay = decay)]? = some hyp := by
      rw [← hfind, List.find?_eq_getElem?_findIdx]
    have hperm := swapRemove_perm hplace
    have hdecay : hyp.decay = decay := by simpa using List.find?_some hfind
    refine ⟨_, by simp only [takeOut, hypothesisOf, StateT.run, hfind]; rfl, ?_⟩
    -- No other hypothesis has the decay of the one that is taken out.
    have hothers := (hperm.map (·.decay)).nodup_iff.mpr hdistinct
    rw [List.map_cons, List.nodup_cons, List.mem_map] at hothers
    have hkept := hperm.filter fun other => other.decay ≠ decay
    rw [List.filter_cons_of_neg (by simp [hdecay]), List.filter_eq_self.mpr] at hkept
    · exact hkept
    · intro other hmem
      have hother : other.decay ≠ hyp.decay := fun hsame => hothers.1 ⟨other, hmem, hsame⟩
      simpa [← hdecay] using hother

section Rest

variable {left rest : List DecayHypothesis} (hdistinct : (left.map (·.decay)).Nodup)
  {keep : DecayHypothesis → Bool} (hrest : rest.Perm (left.filter keep))
include hdistinct hrest

theorem nodup_decays_of_rest : (rest.map (·.decay)).Nodup :=
  (hrest.map _).nodup_iff.mpr (hdistinct.sublist (List.filter_sublist.map _))

/-- The hypothesis of a decay is not touched when others are taken out. -/
theorem hypothesisOf_rest {decay : Decay} (h : ∀ hyp, hyp.decay = decay → keep hyp = true) :
    hypothesisOf rest decay = hypothesisOf left decay := by
  rw [hypothesisOf_of_perm (nodup_decays_of_rest hdistinct hrest) hrest]
  unfold hypothesisOf
  rw [List.find?_filter]
  congr 3
  funext hyp
  by_cases hdecay : hyp.decay = decay
  · simp [hdecay, h hyp hdecay]
  · simp [hdecay]

end Rest

/-- However the hypotheses that are left get reordered, each decay finds its own. The
induction keeps that those left have distinct decays. -/
theorem mapM_takeOut_run (decays : List Decay) (hdecays : decays.Nodup)
    {left : List DecayHypothesis} (hdistinct : (left.map (·.decay)).Nodup) :
    ∃ rest, (decays.mapM takeOut).run left = (decays.map (hypothesisOf left), rest) ∧
      rest.Perm (left.filter fun hyp => hyp.decay ∉ decays) := by
  induction decays generalizing left with
  | nil => exact ⟨left, rfl, by simp⟩
  | cons decay later ih =>
    rw [List.nodup_cons] at hdecays
    obtain ⟨rest, hrun, hrest⟩ := takeOut_run hdistinct decay
    obtain ⟨last, hlater, hlast⟩ := ih hdecays.2 (nodup_decays_of_rest hdistinct hrest)
    have hsame : later.map (hypothesisOf rest) = later.map (hypothesisOf left) := by
      refine List.map_congr_left fun other hother => hypothesisOf_rest hdistinct hrest ?_
      rintro hyp rfl
      simpa using fun hsame : hyp.decay = decay => hdecays.1 (hsame ▸ hother)
    refine ⟨last, ?_, ?_⟩
    · rw [List.mapM_cons, List.map_cons, ← hsame]
      simp only [StateT.run_bind, hrun, StateT.run_pure]
      exact congrArg (fun found => (hypothesisOf left decay :: found.1, found.2)) hlater
    · refine hlast.trans ((hrest.filter _).trans ?_)
      rw [List.filter_filter]
      refine List.Perm.of_eq (List.filter_congr fun hyp _ => ?_)
      simp [not_or, Bool.and_comm]

/-- The two catalogues together take out everything, each decay its own hypothesis. -/
theorem mapM_takeOut_catalogues {listed : List DecayHypothesis}
    (hdistinct : (listed.map (·.decay)).Nodup) :
    ∃ rest, ((Decay.catalogue .twoProng).mapM takeOut).run listed =
        ((Decay.catalogue .twoProng).map (hypothesisOf listed), rest) ∧
      ((Decay.catalogue .threeProng).mapM takeOut).run rest =
        ((Decay.catalogue .threeProng).map (hypothesisOf listed), []) := by
  obtain ⟨rest, htwo, hrest⟩ :=
    mapM_takeOut_run (Decay.catalogue .twoProng) (by decide) hdistinct
  obtain ⟨last, hthree, hlast⟩ :=
    mapM_takeOut_run (Decay.catalogue .threeProng) (by decide)
      (nodup_decays_of_rest hdistinct hrest)
  have hsame : (Decay.catalogue .threeProng).map (hypothesisOf rest) =
      (Decay.catalogue .threeProng).map (hypothesisOf listed) := by
    refine List.map_congr_left fun decay hdecay => hypothesisOf_rest hdistinct hrest ?_
    have hapart : ∀ decay ∈ Decay.catalogue .threeProng, decay ∉ Decay.catalogue .twoProng := by
      decide
    rintro hyp rfl
    simpa using hapart _ hdecay
  have hnothing : last = [] := by
    have hevery : ∀ decay, decay ∈ Decay.catalogue .twoProng ∨
        decay ∈ Decay.catalogue .threeProng := by
      intro decay
      cases decay <;> decide
    refine List.eq_nil_iff_forall_not_mem.mpr fun hyp hmem => ?_
    obtain ⟨hmem, hthreeProng⟩ := List.mem_filter.mp (hlast.mem_iff.mp hmem)
    obtain ⟨_, htwoProng⟩ := List.mem_filter.mp (hrest.mem_iff.mp hmem)
    rcases hevery hyp.decay with h | h
    · exact of_decide_eq_true htwoProng h
    · exact of_decide_eq_true hthreeProng h
  rw [hsame, hnothing] at hthree
  exact ⟨rest, htwo, hthree⟩

/-! ## Accepted configurations -/

theorem readGroup_eq_ok (listed : List DecayHypothesis) (arity : Arity) :
    readGroup listed arity =
      .ok ⟨arity, (Decay.catalogue arity).map (hypothesisOf listed)⟩ := by
  obtain ⟨group, hgroup⟩ := exists_readGroup listed arity
  rw [hgroup]
  unfold readGroup HypothesisGroup.make at hgroup
  split at hgroup
  · cases hgroup
  · rename_i made hmade
    cases hgroup
    split at hmade
    · cases hmade
    · split at hmade
      · cases hmade
      · cases hmade
        rfl

/-- The parts of a configuration are read if the tracks and the hypotheses are and some
hypothesis is enabled. -/
theorem readParts_eq_ok_iff {spec : ConfigurationSpec} {c : Configuration} :
    readParts spec = .ok c ↔
      ∃ selector listed, readSelector spec.tracks = .ok selector ∧
        readHypotheses [] spec.hypotheses = .ok listed ∧ listed.any (·.enabled) = true ∧
        c = ⟨spec.search, spec.fitter, selector,
          ⟨⟨.twoProng, (Decay.catalogue .twoProng).map (hypothesisOf listed)⟩,
            ⟨.threeProng, (Decay.catalogue .threeProng).map (hypothesisOf listed)⟩⟩,
          spec.cascades, spec.toy⟩ := by
  unfold readParts
  simp only [bind_eq_ok_iff, ensure_eq_ok_iff, readGroup_eq_ok]
  constructor
  · rintro ⟨selector, hselector, listed, hlisted, _, henabled, _, htwo, _, hthree, hc⟩
    cases htwo
    cases hthree
    cases hc
    exact ⟨selector, listed, hselector, hlisted, henabled, rfl⟩
  · rintro ⟨selector, listed, hselector, hlisted, henabled, rfl⟩
    exact ⟨selector, hselector, listed, hlisted, (), henabled, _, rfl, _, rfl, rfl⟩

/-- The hypotheses of an accepted configuration are those listed, by their decays. -/
theorem hypotheses_of_ofSpec {spec : ConfigurationSpec} {c : Configuration}
    (h : ofSpec spec = .ok c) :
    ∃ listed, readHypotheses [] spec.hypotheses = .ok listed ∧ ∀ arity,
      c.hypotheses.group arity =
        ⟨arity, (Decay.catalogue arity).map (hypothesisOf listed)⟩ := by
  obtain ⟨_, listed, _, hlisted, _, rfl⟩ := readParts_eq_ok_iff.mp (ofSpec_eq_ok h).2.2
  refine ⟨listed, hlisted, fun arity => ?_⟩
  cases arity <;> rfl

/-- The order of the entries is not seen. One direction is enough, as it can be turned
around. -/
theorem ofSpec_of_perm {spec : ConfigurationSpec} {others : List HypothesisSpec}
    (hperm : others.Perm spec.hypotheses) {c : Configuration} (h : ofSpec spec = .ok c) :
    ofSpec { spec with hypotheses := others } = .ok c := by
  rw [ofSpec_eq] at h ⊢
  simp only [bind_eq_ok_iff] at h ⊢
  obtain ⟨_, htolerance, _, hfitter, _, htoy, _, hcascades, hparts⟩ := h
  refine ⟨_, htolerance, _, hfitter, _, htoy, _, hcascades, ?_⟩
  obtain ⟨selector, listed, hselector, hlisted, henabled, rfl⟩ := readParts_eq_ok_iff.mp hparts
  obtain ⟨relisted, hrelisted, hsame⟩ := readHypotheses_of_perm hlisted hperm
  have hfound : hypothesisOf listed = hypothesisOf relisted :=
    funext (hypothesisOf_of_perm (nodup_decays_of_readHypotheses hlisted) hsame.symm)
  rw [readParts_eq_ok_iff]
  refine ⟨selector, relisted, hselector, hrelisted, ?_, by rw [hfound]⟩
  rw [List.any_eq_true] at henabled ⊢
  obtain ⟨hyp, hmem, hyes⟩ := henabled
  exact ⟨hyp, hsame.mem_iff.mpr hmem, hyes⟩

/-- A decay has one place in the two catalogues. -/
theorem catalogue_getElem?_iff {arity : Arity} {i : Nat} {decay : Decay} :
    (Decay.catalogue arity)[i]? = some decay ↔ arity = decay.arity ∧ i = decay.bit := by
  constructor
  · intro h
    exact ⟨(Decay.arity_of_mem_catalogue (List.mem_of_getElem? h)).symm,
      (bit_catalogue arity h).symm⟩
  · rintro ⟨rfl, rfl⟩
    exact decay.catalogue_bit

/-- The mask of a group has the bits of the decays that are listed and enabled. -/
theorem contains_enabledMask_iff {entries : List HypothesisSpec}
    {listed : List DecayHypothesis} (hlisted : readHypotheses [] entries = .ok listed)
    (arity : Arity) (bit : Nat) :
    (HypothesisGroup.enabledMask
        ⟨arity, (Decay.catalogue arity).map (hypothesisOf listed)⟩).contains bit = true ↔
      ∃ entry ∈ entries,
        (Decay.catalogue arity)[bit]? = some entry.decay ∧ entry.enabled = true := by
  have hlength : (Decay.catalogue arity).length ≤ HypothesisMask.capacity := by
    cases arity <;> decide
  unfold HypothesisGroup.enabledMask
  rw [HypothesisMask.contains_ofFlags _ _ (by simpa using hlength), List.map_map,
    List.getD_eq_getElem?_getD, List.getElem?_map]
  cases hdecay : (Decay.catalogue arity)[bit]? with
  | none => simp
  | some decay =>
    simp only [Option.map_some, Option.getD_some, Function.comp_apply,
      enabled_hypothesisOf_iff hlisted, Option.some.injEq, @eq_comm _ decay]

/-! ## Any order -/

/-- The hypotheses of a configuration land on their own bits, in whatever order they are
listed. A group has one hypothesis for each decay of its catalogue, which follows the entry
that names the decay or is disabled. Each entry is used once: if the groups take them out one
by one, in turn, none is left. -/
theorem hypotheses_land_on_their_own_bits_in_any_order (spec : ConfigurationSpec) :
    (∀ others, others.Perm spec.hypotheses → ∀ c,
      ofSpec { spec with hypotheses := others } = .ok c ↔ ofSpec spec = .ok c) ∧
    ∀ c, ofSpec spec = .ok c →
      (∀ arity,
        (c.hypotheses.group arity).hypotheses.map (·.decay) = Decay.catalogue arity ∧
        (∀ hyp ∈ (c.hypotheses.group arity).hypotheses, FollowsListing spec.hypotheses hyp) ∧
        ∀ bit, (c.hypotheses.group arity).enabledMask.contains bit = true ↔
          ∃ entry ∈ spec.hypotheses,
            (Decay.catalogue arity)[bit]? = some entry.decay ∧ entry.enabled = true) ∧
      (∀ entry ∈ spec.hypotheses, ∃! place : Arity × Nat,
        ((c.hypotheses.group place.1).hypotheses.map (·.decay))[place.2]? = some entry.decay) ∧
      (spec.hypotheses.map (·.decay)).Nodup ∧
      ∃ listed rest, readHypotheses [] spec.hypotheses = .ok listed ∧
        ((Decay.catalogue .twoProng).mapM takeOut).run listed =
          (c.hypotheses.twoProng.hypotheses, rest) ∧
        ((Decay.catalogue .threeProng).mapM takeOut).run rest =
          (c.hypotheses.threeProng.hypotheses, []) := by
  refine ⟨fun others hperm c => ⟨?_, ofSpec_of_perm hperm⟩, fun c hc => ?_⟩
  · exact @ofSpec_of_perm { spec with hypotheses := others } spec.hypotheses hperm.symm c
  obtain ⟨listed, hlisted, hgroups⟩ := hypotheses_of_ofSpec hc
  have hdecays : ∀ arity,
      (c.hypotheses.group arity).hypotheses.map (·.decay) = Decay.catalogue arity := by
    intro arity
    rw [hgroups, List.map_map]
    exact (List.map_congr_left fun decay _ => decay_hypothesisOf listed decay).trans
      (List.map_id _)
  refine ⟨fun arity => ⟨hdecays arity, ?_, ?_⟩, ?_, (readHypotheses_eq_ok_iff.mp hlisted).1, ?_⟩
  · rw [hgroups, List.forall_mem_map]
    exact fun decay _ => followsListing_hypothesisOf hlisted decay
  · rw [hgroups]
    exact contains_enabledMask_iff hlisted arity
  · intro entry _
    simp only [hdecays, catalogue_getElem?_iff]
    exact ⟨(entry.decay.arity, entry.decay.bit), ⟨rfl, rfl⟩, fun place h => Prod.ext h.1 h.2⟩
  · obtain ⟨rest, htwo, hthree⟩ :=
      mapM_takeOut_catalogues (nodup_decays_of_readHypotheses hlisted)
    refine ⟨listed, rest, hlisted, ?_, ?_⟩
    · rw [htwo, show c.hypotheses.twoProng = _ from hgroups .twoProng]
    · rw [hthree, show c.hypotheses.threeProng = _ from hgroups .threeProng]

namespace Sample

def roleSpec : RoleSpec :=
  ⟨0, 10, ⟨[0, 100], ["min_dcaxytoprimary", "max_dcaxytoprimary"], [[0, 10]]⟩⟩

/-- The entry of a three-prong decay before that of a two-prong one, and a later bit before
an earlier one. -/
def outOfOrder : ConfigurationSpec where
  search := ⟨0.125, false, true, false⟩
  fitter := .standard
  tracks := ⟨.standard, .constant roleSpec⟩
  hypotheses :=
    [⟨.lcToPKPi, true, ⟨[0, 100], ["massMin", "massMax", "cosp", "decL"], [[-1, 0, 0.5, 0.25]]⟩⟩,
      ⟨.jpsiToEE, false, ⟨[0, 100], ["massMin", "massMax", "d0d0", "cosp"], [[-1, 0, 1, 0.5]]⟩⟩,
      ⟨.d0ToPiK, true, ⟨[0, 100], ["massMin", "massMax", "d0d0", "cosp"], [[1.5, 2, 1, 0.5]]⟩⟩]
  cascades := none
  toy := .standard

theorem exists_ofSpec_outOfOrder : ∃ c, Configuration.ofSpec outOfOrder = .ok c := by
  have haccepted : (Configuration.ofSpec outOfOrder).isOk = true := by decide +kernel
  cases hc : Configuration.ofSpec outOfOrder with
  | ok c => exact ⟨c, rfl⟩
  | error e =>
    rw [hc] at haccepted
    cases haccepted

end Sample

/-- The decay that is listed last has the lowest bit, one that is listed but not enabled has
none, and the entries may as well be listed the other way round. -/
theorem the_last_entry_has_the_lowest_bit :
    ∃ c, ofSpec Sample.outOfOrder = .ok c ∧
      ofSpec { Sample.outOfOrder with hypotheses := Sample.outOfOrder.hypotheses.reverse } =
        .ok c ∧
      (c.hypotheses.group .twoProng).enabledMask.contains 0 = true ∧
      (c.hypotheses.group .twoProng).enabledMask.contains 1 = false := by
  obtain ⟨c, hc⟩ := Sample.exists_ofSpec_outOfOrder
  obtain ⟨hperm, hplaces⟩ := hypotheses_land_on_their_own_bits_in_any_order Sample.outOfOrder
  obtain ⟨_, _, hmask⟩ := (hplaces c hc).1 .twoProng
  refine ⟨c, hc, (hperm _ (List.reverse_perm _) c).mpr hc, ?_, ?_⟩
  · exact (hmask 0).mpr ⟨_, List.mem_of_getElem? (show _[2]? = some _ from rfl), rfl, rfl⟩
  · rw [← Bool.not_eq_true, hmask 1]
    simp [Sample.outOfOrder, Decay.catalogue]

end Configuration

end DecaySearch
