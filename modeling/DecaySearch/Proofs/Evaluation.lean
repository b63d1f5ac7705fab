-- The evaluation of one combination, without its faults: with a well-formed
-- search and charges that follow a decay, every selection gives a result.
import DecaySearch.Proofs.Verdicts

namespace DecaySearch

/-! ## Verdicts on a fresh candidate -/

namespace DecayHypothesis

/-- The verdict after the cuts before the fit. -/
def verdictBefore (mode : SelectionMode) (q : PreFitQuantities) (h : DecayHypothesis) : Verdict :=
  if h.enabled then (h.preFitFinding q).judge mode (.start true) else .start false

/-- The verdict after the cuts after the fit. -/
def verdictAfter (mode : SelectionMode) (q : PreFitQuantities) (after : PostFitQuantities)
    (h : DecayHypothesis) : Verdict :=
  if h.enabled && mode.evaluates (h.verdictBefore mode q).alive then
    (h.postFitFinding after).judge mode (h.verdictBefore mode q)
  else h.verdictBefore mode q

theorem alive_verdictBefore (mode : SelectionMode) (q : PreFitQuantities) (h : DecayHypothesis) :
    (h.verdictBefore mode q).alive = (h.enabled && (h.preFitFinding q).passes) := by
  unfold verdictBefore
  cases h.enabled
  · rfl
  · simp [PreFitFinding.alive_judge, Verdict.start]

theorem matched_verdictBefore (mode : SelectionMode) (q : PreFitQuantities)
    (h : DecayHypothesis) :
    (h.verdictBefore mode q).matched =
      if h.enabled then (h.preFitFinding q).matched else .none := by
  unfold verdictBefore
  cases h.enabled
  · rfl
  · simp [PreFitFinding.matched_judge]

theorem alive_verdictAfter (mode : SelectionMode) (q : PreFitQuantities)
    (after : PostFitQuantities) (h : DecayHypothesis) :
    (h.verdictAfter mode q after).alive =
      (h.enabled && (h.preFitFinding q).passes && (h.postFitFinding after).passes) := by
  unfold verdictAfter
  split
  · rw [PostFitFinding.alive_judge, alive_verdictBefore]
  · rename_i hskip
    -- A hypothesis that is not looked at any more is disabled or has failed.
    rw [alive_verdictBefore] at hskip ⊢
    cases he : h.enabled
    · rfl
    · cases hp : (h.preFitFinding q).passes
      · rfl
      · simp [he, hp, SelectionMode.evaluates] at hskip

theorem matched_verdictAfter (mode : SelectionMode) (q : PreFitQuantities)
    (after : PostFitQuantities) (h : DecayHypothesis) :
    (h.verdictAfter mode q after).matched = (h.verdictBefore mode q).matched := by
  unfold verdictAfter
  split
  · rw [PostFitFinding.matched_judge]
  · rfl

end DecayHypothesis

/-! ## Charges -/

/-- The charges that the daughters of a decay may carry, in enumeration order. -/
def Arity.Follows : Arity → List Sign → Prop
  | .twoProng, signs => signs = [.positive, .negative]
  | .threeProng, signs =>
    signs = [.positive, .negative, .positive] ∨ signs = [.negative, .positive, .negative]

theorem Arity.acceptsCharges_iff (arity : Arity) (signs : List Sign) :
    arity.acceptsCharges signs = true ↔ arity.Follows signs := by
  unfold acceptsCharges
  rw [Bool.or_eq_true, Bool.and_eq_true, decide_eq_true_iff, decide_eq_true_iff,
    decide_eq_true_iff]
  cases arity <;> simp [Follows, chargePattern, Sign.opposite]

theorem Arity.length_of_follows {arity : Arity} {prongs : List Track}
    (h : arity.Follows (prongs.map (·.sign))) : prongs.length = arity.prongs := by
  rw [← List.length_map (·.sign)]
  cases arity with
  | twoProng => rw [show prongs.map (·.sign) = _ from h]; rfl
  | threeProng => rcases h with h | h <;> rw [h] <;> rfl

theorem Arity.ofProngs?_prongs (arity : Arity) : ofProngs? arity.prongs = some arity := by
  cases arity <;> rfl

/-! ## The selections of a candidate -/

/-- What the cuts before the fit look at in some tracks. -/
def PreFitQuantities.ofProngs (margin : Float) (prongs : List Track) : PreFitQuantities where
  pt := Kinematics.pt (Kinematics.totalMomentum (prongs.map (·.momentum))) + margin
  momenta := prongs.map (·.momentum)
  product :=
    match prongs with
    | a :: b :: _ => a.dcaXY * b.dcaXY
    | _ => 0

/-- A candidate whose hypotheses have gone through the cuts before the fit. -/
def Candidate.before (mode : SelectionMode) (margin : Float) (group : HypothesisGroup)
    (prongs : List Track) : Candidate :=
  .ofVerdicts prongs group.arity
    (group.hypotheses.map (·.verdictBefore mode (.ofProngs margin prongs))) none

/-- A candidate whose hypotheses have gone through all cuts. -/
def Candidate.after (mode : SelectionMode) (margin : Float) (group : HypothesisGroup)
    (primary : Position) (vertex : FittedVertex) (prongs : List Track) : Candidate :=
  .ofVerdicts prongs group.arity
    (group.hypotheses.map
      (·.verdictAfter mode (.ofProngs margin prongs) (.ofVertex vertex primary)))
    (some vertex)

theorem HypothesisGroup.WellFormed.size_le {group : HypothesisGroup} (hg : group.WellFormed) :
    group.size ≤ HypothesisMask.capacity :=
  Nat.le_trans hg.length_le (by decide)

/-- There is a mask for a group that has no more hypotheses than a mask has bits. -/
theorem HypothesisGroup.makeMask_eq {group : HypothesisGroup} (hg : group.WellFormed) :
    group.makeMask = .ok group.enabledMask := by
  have hflags : group.enabledMask = group.hypotheses.zipIdx.foldl
      (fun m entry => if entry.1.enabled then m.insert entry.2 else m) .empty := by
    unfold enabledMask HypothesisMask.ofFlags
    rw [List.zipIdx_map, List.foldl_map]
    rfl
  rw [hflags]
  apply foldlM_eq_ok_foldl
  rintro m ⟨h, bit⟩ hmem
  have hbit : bit < HypothesisMask.capacity :=
    Nat.lt_of_lt_of_le (List.snd_lt_of_mem_zipIdx hmem) hg.size_le
  show insertEnabled m h bit = .ok (if h.enabled then m.insert bit else m)
  unfold insertEnabled
  rw [HypothesisMask.bit_eq_ok_iff.mpr ⟨hbit, rfl⟩]
  split
  · rfl
  · rfl

theorem Candidate.make_eq {group : HypothesisGroup} (hg : group.WellFormed)
    {prongs : List Track} (h : group.arity.Follows (prongs.map (·.sign))) :
    Candidate.make group prongs =
      .ok (.ofVerdicts prongs group.arity (group.hypotheses.map fun h => .start h.enabled)
        none) := by
  have hlen := Arity.length_of_follows h
  unfold Candidate.make
  rw [if_neg (not_not_intro hlen), (Arity.acceptsCharges_iff _ _).mpr h,
    HypothesisGroup.makeMask_eq hg]
  unfold ofVerdicts HypothesisGroup.enabledMask HypothesisGroup.size
  simp only [List.map_map, Function.comp_def, Verdict.start, List.map_const']
  rfl

/-- The cuts before the fit look at a pair or a triplet without a fault. -/
theorem Preselector.quantities_eq (s : Preselector) {arity : Arity} {prongs : List Track}
    (h : arity.Follows (prongs.map (·.sign))) (verdicts : List Verdict)
    (vertex : Option FittedVertex) :
    s.quantities (.ofVerdicts prongs arity verdicts vertex) =
      .ok (.ofProngs s.ptTolerance prongs) := by
  have hlen := Arity.length_of_follows h
  have h2 : 2 ≤ arity.prongs := by cases arity <;> decide
  match prongs with
  | [] => simp only [List.length_nil] at hlen; omega
  | [_] => simp only [List.length_cons, List.length_nil] at hlen; omega
  | _ :: _ :: _ => rfl

section

variable {group : HypothesisGroup} (hg : group.WellFormed) {prongs : List Track}
  {verdicts : List Verdict} (hlength : verdicts.length = group.size)
include hg hlength

/-- The cuts before the fit judge each hypothesis for itself. -/
theorem Preselector.preselect_eq (hprongs : group.arity.Follows (prongs.map (·.sign)))
    (selector : Preselector) (vertex : Option FittedVertex) :
    selector.preselect group (.ofVerdicts prongs group.arity verdicts vertex) =
      .ok (.ofVerdicts prongs group.arity (List.zipWith
        (·.judgedBefore selector.mode (.ofProngs selector.ptTolerance prongs)) group.hypotheses
        verdicts) vertex) := by
  have hjudge : ∀ h ∈ group.hypotheses, ∀ bit, Candidate.ActsAt bit
      (Preselector.judge selector.mode (.ofProngs selector.ptTolerance prongs) h bit) fun v =>
        (h.preFitFinding (.ofProngs selector.ptTolerance prongs)).judge selector.mode v := by
    intro h hmem bit
    refine Preselector.actsAt_judge (hg.members h hmem) _ _ ?_ bit
    rw [hg.same_arity h hmem, ← Arity.length_of_follows hprongs]
    exact List.length_map _
  unfold Preselector.preselect
  rw [Candidate.ensureArity_eq_ok_iff.mpr rfl, Preselector.quantities_eq selector hprongs]
  exact Candidate.testEach_ofVerdicts hjudge selector.mode prongs group.arity vertex hlength
    hg.size_le

/-- The cuts after the fit judge each hypothesis for itself. -/
theorem Postselector.postselect_eq (mode : SelectionMode) (primary : Position)
    (vertex : FittedVertex) :
    Postselector.postselect mode group (.ofVerdicts prongs group.arity verdicts (some vertex))
        primary =
      .ok (.ofVerdicts prongs group.arity (List.zipWith
        (·.judgedAfter mode (.ofVertex vertex primary)) group.hypotheses verdicts)
        (some vertex)) := by
  have hjudge : ∀ h ∈ group.hypotheses, ∀ bit, Candidate.ActsAt bit
      (Postselector.judge mode (.ofVertex vertex primary) h bit) fun v =>
        (h.postFitFinding (.ofVertex vertex primary)).judge mode v :=
    fun h hmem bit => Postselector.actsAt_judge (hg.members h hmem) _ _ bit
  unfold Postselector.postselect
  rw [Candidate.ensureArity_eq_ok_iff.mpr rfl]
  exact Candidate.testEach_ofVerdicts hjudge mode prongs group.arity (some vertex) hlength
    hg.size_le

end

theorem Preselector.preselect_fresh (s : Preselector) {group : HypothesisGroup}
    (hg : group.WellFormed) {prongs : List Track}
    (h : group.arity.Follows (prongs.map (·.sign))) :
    s.preselect group (.ofVerdicts prongs group.arity
        (group.hypotheses.map fun h => .start h.enabled) none) =
      .ok (.before s.mode s.ptTolerance group prongs) := by
  have hjudged : ∀ h : DecayHypothesis,
      h.judgedBefore s.mode (.ofProngs s.ptTolerance prongs) (.start h.enabled) =
        h.verdictBefore s.mode (.ofProngs s.ptTolerance prongs) := by
    intro h
    unfold DecayHypothesis.judgedBefore DecayHypothesis.verdictBefore
    cases h.enabled <;> simp [Verdict.start, SelectionMode.evaluates]
  rw [Preselector.preselect_eq hg (List.length_map _) h, List.zipWith_map_right,
    List.zipWith_self]
  unfold Candidate.before
  simp only [hjudged]

theorem Postselector.postselect_before (mode : SelectionMode) (margin : Float)
    {group : HypothesisGroup} (hg : group.WellFormed) (prongs : List Track)
    (primary : Position) (vertex : FittedVertex) :
    Postselector.postselect mode group
        { Candidate.before mode margin group prongs with vertex := some vertex } primary =
      .ok (.after mode margin group primary vertex prongs) := by
  show Postselector.postselect mode group (.ofVerdicts prongs group.arity
    (group.hypotheses.map (·.verdictBefore mode (.ofProngs margin prongs))) (some vertex))
    primary = _
  rw [Postselector.postselect_eq hg (List.length_map _), List.zipWith_map_right,
    List.zipWith_self]
  rfl

/-! ## Surviving hypotheses -/

namespace Candidate

theorem contains_ofVerdicts_map {group : HypothesisGroup} (hg : group.WellFormed)
    (verdict : DecayHypothesis → Verdict) (prongs : List Track) (arity : Arity)
    (vertex : Option FittedVertex) (bit : Nat) :
    (ofVerdicts prongs arity (group.hypotheses.map verdict) vertex).hypotheses.contains bit =
        true ↔
      ∃ h, group.hypotheses[bit]? = some h ∧ (verdict h).alive = true := by
  have hroom : (group.hypotheses.map verdict).length ≤ HypothesisMask.capacity := by
    rw [List.length_map]
    exact hg.size_le
  rw [contains_iff_alive hroom, List.getElem?_map]
  simp

theorem contains_before {group : HypothesisGroup} (hg : group.WellFormed) (mode : SelectionMode)
    (margin : Float) (prongs : List Track) (bit : Nat) :
    (before mode margin group prongs).hypotheses.contains bit = true ↔
      ∃ h, group.hypotheses[bit]? = some h ∧ h.enabled = true ∧
        (h.preFitFinding (.ofProngs margin prongs)).passes = true := by
  unfold before
  rw [contains_ofVerdicts_map hg]
  simp only [DecayHypothesis.alive_verdictBefore, Bool.and_eq_true]

theorem contains_after {group : HypothesisGroup} (hg : group.WellFormed) (mode : SelectionMode)
    (margin : Float) (primary : Position) (vertex : FittedVertex) (prongs : List Track)
    (bit : Nat) :
    (after mode margin group primary vertex prongs).hypotheses.contains bit = true ↔
      ∃ h, group.hypotheses[bit]? = some h ∧ h.enabled = true ∧
        (h.preFitFinding (.ofProngs margin prongs)).passes = true ∧
        (h.postFitFinding (.ofVertex vertex primary)).passes = true := by
  unfold after
  rw [contains_ofVerdicts_map hg]
  simp only [DecayHypothesis.alive_verdictAfter, Bool.and_eq_true, and_assoc]

end Candidate

/-! ## The evaluation -/

namespace Search

/-- The candidate that the cuts before the fit leave of some tracks. -/
def candidateBefore (s : Search) (arity : Arity) (prongs : List Track) : Candidate :=
  .before s.mode s.preselector.ptTolerance (s.hypotheses.group arity) prongs

/-- The candidate that all cuts leave of some tracks with a vertex. -/
def candidateAfter (s : Search) (arity : Arity) (primary : Position) (vertex : FittedVertex)
    (prongs : List Track) : Candidate :=
  .after s.mode s.preselector.ptTolerance (s.hypotheses.group arity) primary vertex prongs

/-- Truth that a fit is tried: a hypothesis is left, or every cut is evaluated. -/
def triesFit (s : Search) (arity : Arity) (prongs : List Track) : Bool :=
  s.mode.evaluates (!(s.candidateBefore arity prongs).hypotheses.isEmpty)

/-- The evaluation of tracks that follow the charges of an arity. -/
def outcome (s : Search) (arity : Arity) (primary : Position) (prongs : List Track) :
    Evaluation :=
  if s.triesFit arity prongs then
    match s.fitter prongs with
    | none => ⟨s.candidateBefore arity prongs, .failed, [⟨prongs, none⟩]⟩
    | some vertex =>
      ⟨s.candidateAfter arity primary vertex prongs, .converged, [⟨prongs, some vertex⟩]⟩
  else ⟨s.candidateBefore arity prongs, .notAttempted, []⟩

theorem triesFit_of_debug {s : Search} (h : s.mode = .debug) (arity : Arity)
    (prongs : List Track) : s.triesFit arity prongs = true := by
  unfold triesFit SelectionMode.evaluates
  rw [h]
  rfl

theorem prongs_outcome (s : Search) (arity : Arity) (primary : Position) (prongs : List Track) :
    (s.outcome arity primary prongs).candidate.prongs = prongs := by
  unfold outcome
  split
  · split
    · rfl
    · rfl
  · rfl

theorem arity_outcome (s : Search) (arity : Arity) (primary : Position) (prongs : List Track) :
    (s.outcome arity primary prongs).candidate.arity = (s.hypotheses.group arity).arity := by
  unfold outcome
  split
  · split
    · rfl
    · rfl
  · rfl

theorem fit_outcome (s : Search) (arity : Arity) (primary : Position) (prongs : List Track) :
    (s.outcome arity primary prongs).fit =
      if s.triesFit arity prongs then
        if (s.fitter prongs).isNone then .failed else .converged
      else .notAttempted := by
  unfold outcome
  split
  · cases s.fitter prongs <;> rfl
  · rfl

/-- The fitter is called once for a fit that is tried, and not otherwise. -/
theorem calls_outcome (s : Search) (arity : Arity) (primary : Position) (prongs : List Track) :
    (s.outcome arity primary prongs).calls =
      if s.triesFit arity prongs then [s.fitter.call prongs] else [] := by
  unfold outcome Fitter.call
  cases s.triesFit arity prongs
  · rfl
  · cases hvertex : s.fitter prongs <;> simp

theorem outcome_of_vertex {s : Search} {arity : Arity} {prongs : List Track}
    (h : s.triesFit arity prongs = true) {vertex : FittedVertex}
    (hv : s.fitter prongs = some vertex) (primary : Position) :
    s.outcome arity primary prongs =
      ⟨s.candidateAfter arity primary vertex prongs, .converged, [⟨prongs, some vertex⟩]⟩ := by
  unfold outcome
  rw [if_pos h, hv]

/-- Only a fit that finds a vertex leads to an accepted candidate. -/
theorem outcome_of_accepted {s : Search} {arity : Arity} {primary : Position}
    {prongs : List Track} (h : (s.outcome arity primary prongs).accepted = true) :
    ∃ vertex, s.triesFit arity prongs = true ∧ s.fitter prongs = some vertex := by
  unfold outcome at h
  split at h
  · rename_i htry
    split at h
    · simp [Evaluation.accepted] at h
    · rename_i vertex hvertex
      exact ⟨vertex, htry, hvertex⟩
  · simp [Evaluation.accepted] at h

/-- The fit brings no hypothesis back. -/
theorem isEmpty_candidateAfter {s : Search} (hs : s.WellFormed) {arity : Arity}
    {prongs : List Track}
    (h : (s.candidateBefore arity prongs).hypotheses.isEmpty = true) (primary : Position)
    (vertex : FittedVertex) :
    (s.candidateAfter arity primary vertex prongs).hypotheses.isEmpty = true := by
  have hg := hs.hypotheses.groups arity
  rw [HypothesisMask.isEmpty_iff] at h ⊢
  intro bit
  have hbefore := h bit
  rw [← Bool.not_eq_true] at hbefore ⊢
  intro hafter
  unfold candidateAfter at hafter
  unfold candidateBefore at hbefore
  rw [Candidate.contains_after hg] at hafter
  rw [Candidate.contains_before hg] at hbefore
  obtain ⟨hyp, hget, henabled, hpasses, _⟩ := hafter
  exact hbefore ⟨hyp, hget, henabled, hpasses⟩

/-- A combination is accepted if there is a vertex and a hypothesis passes all cuts. The
mode plays no part in it. -/
theorem accepted_outcome_iff {s : Search} (hs : s.WellFormed) (arity : Arity)
    (primary : Position) (prongs : List Track) :
    (s.outcome arity primary prongs).accepted = true ↔
      ∃ vertex, s.fitter prongs = some vertex ∧
        (s.candidateAfter arity primary vertex prongs).hypotheses.isEmpty = false := by
  constructor
  · intro h
    obtain ⟨vertex, htry, hvertex⟩ := outcome_of_accepted h
    rw [outcome_of_vertex htry hvertex] at h
    exact ⟨vertex, hvertex, by simpa [Evaluation.accepted] using h⟩
  · rintro ⟨vertex, hvertex, hleft⟩
    have htry : s.triesFit arity prongs = true := by
      unfold triesFit SelectionMode.evaluates
      cases hempty : (s.candidateBefore arity prongs).hypotheses.isEmpty
      · simp
      · rw [isEmpty_candidateAfter hs hempty primary vertex] at hleft
        cases hleft
    rw [outcome_of_vertex htry hvertex]
    simp [Evaluation.accepted, hleft]

/-- A well-formed search evaluates every combination of the right charges. -/
theorem evaluate_eq {s : Search} (hs : s.WellFormed) {arity : Arity} {prongs : List Track}
    (h : arity.Follows (prongs.map (·.sign))) (primary : Position) :
    s.evaluate primary prongs = .ok (s.outcome arity primary prongs) := by
  have hg := hs.hypotheses.groups arity
  have ha := hs.hypotheses.arities arity
  have hlen := Arity.length_of_follows h
  have hf : (s.hypotheses.group arity).arity.Follows (prongs.map (·.sign)) := by rwa [ha]
  have hcharges := (Arity.acceptsCharges_iff _ _).mpr h
  have hpre := Preselector.preselect_fresh s.preselector hg hf
  unfold evaluate
  rw [hlen, Arity.ofProngs?_prongs]
  simp only [hcharges, Bool.not_true, Bool.false_eq_true, if_false]
  rw [Candidate.make_eq hg hf]
  simp only [bind, Except.bind, hpre]
  change (if (!s.triesFit arity prongs) = true then _ else _) = _
  unfold outcome
  cases htry : s.triesFit arity prongs
  · rfl
  · simp only [Bool.not_true, Bool.false_eq_true, if_false, if_true, Fitter.call]
    cases hfit : s.fitter prongs with
    | none => rfl
    | some vertex =>
      have hpost := Postselector.postselect_before s.mode s.preselector.ptTolerance hg prongs
        primary vertex
      change (do
        let candidate ← Postselector.postselect s.mode _ _ primary
        pure (⟨candidate, .converged, _⟩ : Evaluation)) = _
      rw [show s.preselector.mode = s.mode from rfl, hpost]
      rfl

end Search

end DecaySearch
