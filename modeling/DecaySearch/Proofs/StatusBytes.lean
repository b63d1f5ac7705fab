-- Which stages the status bytes of a candidate have cleared. The cuts fail or pass alike
-- in both modes, but production records the first failure of a hypothesis only, and debug
-- mode records all of them.
import DecaySearch.Proofs.DebugRuns

namespace DecaySearch

/-! ## Bytes -/

/-- The stages whose bits a status byte does not have, in their order. -/
def clearedStages (byte : UInt8) : List CutStage :=
  CutStage.all.filter fun stage => byte &&& UInt8.ofNat stage.bit = 0

namespace CutStatus

/-- The stages that have failed, in their order. -/
def failed (s : CutStatus) : List CutStage := CutStage.all.filter fun stage => !s.passed stage

theorem clearedStages_packed (s : CutStatus) : clearedStages s.packed = s.failed := by
  rcases s with ⟨pt, mass, product, fitted, pointing, length⟩
  cases pt <;> cases mass <;> cases product <;> cases fitted <;> cases pointing <;>
    cases length <;> rfl

/-- A byte has no bit beyond the six stages. -/
theorem packed_lt (s : CutStatus) : s.packed < 0x40 := by
  rcases s with ⟨pt, mass, product, fitted, pointing, length⟩
  cases pt <;> cases mass <;> cases product <;> cases fitted <;> cases pointing <;>
    cases length <;> decide

theorem packed_eq_iff (s : CutStatus) : s.packed = 0x3f ↔ s = allPassed := by
  rcases s with ⟨pt, mass, product, fitted, pointing, length⟩
  cases pt <;> cases mass <;> cases product <;> cases fitted <;> cases pointing <;>
    cases length <;> decide

theorem mem_failed_iff (s : CutStatus) (stage : CutStage) :
    stage ∈ s.failed ↔ s.passed stage = false := by
  unfold failed
  rw [List.mem_filter, Bool.not_eq_true']
  constructor
  · exact And.right
  · exact fun hfailed => ⟨by cases stage <;> decide, hfailed⟩

end CutStatus

/-- The status bytes of a candidate, in the order of the bits of its hypotheses. -/
def Candidate.statusBytes (c : Candidate) : List UInt8 := c.status.map (·.packed)

theorem Candidate.map_clearedStages (c : Candidate) :
    c.statusBytes.map clearedStages = c.status.map (·.failed) := by
  unfold statusBytes
  rw [List.map_map]
  exact List.map_congr_left fun status _ => status.clearedStages_packed

/-! ## The failures of one hypothesis -/

/-- The cuts before the fit that fail. -/
def PreFitFinding.failures : PreFitFinding → List CutStage
  | .noBin => [.preFitPt]
  | .tested matched exceeds =>
    (if matched.any then [] else [.mass]) ++ (if exceeds then [.impactParameterProduct] else [])

/-- The cuts after the fit that fail. -/
def PostFitFinding.failures : PostFitFinding → List CutStage
  | .noBin => [.postFitPt]
  | .tested points short =>
    (if points then [] else [.cosPointingAngle]) ++ (if short then [.decayLength] else [])

theorem PreFitFinding.failures_eq_nil_iff (f : PreFitFinding) :
    f.failures = [] ↔ f.passes = true := by
  cases f with
  | noBin => decide
  | tested matched exceeds => cases matched <;> cases exceeds <;> decide

/-- The failures that a mode records: all of them in debug mode, and the first one in
production. -/
def SelectionMode.recorded (mode : SelectionMode) (failures : List CutStage) : List CutStage :=
  if mode.isDebug then failures else failures.take 1

theorem PreFitFinding.failed_judge (mode : SelectionMode) (f : PreFitFinding) :
    (f.judge mode (.start true)).status.failed = mode.recorded f.failures := by
  cases f with
  | noBin => cases mode <;> rfl
  | tested matched exceeds => cases mode <;> cases matched <;> cases exceeds <;> rfl

/-- The cuts after the fit add to what was recorded before, in production only if nothing
was. -/
theorem PostFitFinding.failed_judge (mode : SelectionMode) (before : PreFitFinding)
    (after : PostFitFinding) :
    (if mode.evaluates (before.judge mode (.start true)).alive then
        after.judge mode (before.judge mode (.start true))
      else before.judge mode (.start true)).status.failed =
      mode.recorded (before.failures ++ after.failures) := by
  cases before with
  | noBin =>
    cases after with
    | noBin => cases mode <;> rfl
    | tested points short => cases mode <;> cases points <;> cases short <;> rfl
  | tested matched exceeds =>
    cases after with
    | noBin => cases mode <;> cases matched <;> cases exceeds <;> rfl
    | tested points short =>
      cases mode <;> cases matched <;> cases exceeds <;> cases points <;> cases short <;> rfl

namespace DecayHypothesis

/-- The cuts before the fit that a hypothesis fails. A disabled one is not tested. -/
def failuresBefore (h : DecayHypothesis) (q : PreFitQuantities) : List CutStage :=
  if h.enabled then (h.preFitFinding q).failures else []

def failuresAfter (h : DecayHypothesis) (after : PostFitQuantities) : List CutStage :=
  if h.enabled then (h.postFitFinding after).failures else []

theorem failed_verdictBefore (mode : SelectionMode) (q : PreFitQuantities)
    (h : DecayHypothesis) :
    (h.verdictBefore mode q).status.failed = mode.recorded (h.failuresBefore q) := by
  unfold verdictBefore failuresBefore
  cases h.enabled
  · cases mode <;> rfl
  · exact PreFitFinding.failed_judge mode _

theorem failed_verdictAfter (mode : SelectionMode) (q : PreFitQuantities)
    (after : PostFitQuantities) (h : DecayHypothesis) :
    (h.verdictAfter mode q after).status.failed =
      mode.recorded (h.failuresBefore q ++ h.failuresAfter after) := by
  unfold verdictAfter verdictBefore failuresBefore failuresAfter
  cases h.enabled
  · cases mode <;> rfl
  · exact PostFitFinding.failed_judge mode _ _

end DecayHypothesis

/-! ## The failures of a combination -/

namespace Search

/-- The cuts that a hypothesis fails: those before the fit, and those after it if there is a
vertex. -/
def failures (s : Search) (primary : Position) (prongs : List Track) (h : DecayHypothesis) :
    List CutStage :=
  h.failuresBefore (.ofProngs s.preselector.ptTolerance prongs) ++
    match s.fitter prongs with
    | none => []
    | some vertex => h.failuresAfter (.ofVertex vertex primary)

/-- A fit is only skipped in production, when every enabled hypothesis has failed. -/
theorem failuresBefore_of_skipped {s : Search} (hs : s.WellFormed) {arity : Arity}
    {prongs : List Track} (hskip : s.triesFit arity prongs = false) {h : DecayHypothesis}
    (hmem : h ∈ (s.hypotheses.group arity).hypotheses) (henabled : h.enabled = true) :
    h.failuresBefore (.ofProngs s.preselector.ptTolerance prongs) ≠ [] := by
  have hempty : (s.candidateBefore arity prongs).hypotheses.isEmpty = true := by
    unfold triesFit SelectionMode.evaluates at hskip
    rw [Bool.or_eq_false_iff] at hskip
    simpa using hskip.2
  obtain ⟨bit, hbit⟩ := List.getElem?_of_mem hmem
  have hlost := (HypothesisMask.isEmpty_iff _).mp hempty bit
  unfold candidateBefore at hlost
  rw [← Bool.not_eq_true, Candidate.contains_before (hs.hypotheses.groups arity)] at hlost
  unfold DecayHypothesis.failuresBefore
  rw [if_pos henabled, Ne, PreFitFinding.failures_eq_nil_iff]
  exact fun hpasses => hlost ⟨h, hbit, henabled, hpasses⟩

/-- An evaluation records the failures of each hypothesis as far as its mode goes, whether
the fit is skipped, fails or finds a vertex. -/
theorem map_failed_outcome {s : Search} (hs : s.WellFormed) (arity : Arity)
    (primary : Position) (prongs : List Track) :
    (s.outcome arity primary prongs).candidate.status.map (·.failed) =
      (s.hypotheses.group arity).hypotheses.map fun h =>
        s.mode.recorded (s.failures primary prongs h) := by
  unfold outcome failures
  cases htries : s.triesFit arity prongs with
  | true =>
    rw [if_pos rfl]
    cases s.fitter prongs with
    | none =>
      simp only [candidateBefore, Candidate.before, Candidate.ofVerdicts, List.map_map,
        List.append_nil]
      exact List.map_congr_left fun h _ => h.failed_verdictBefore _ _
    | some vertex =>
      simp only [candidateAfter, Candidate.after, Candidate.ofVerdicts, List.map_map]
      exact List.map_congr_left fun h _ => h.failed_verdictAfter _ _ _
  | false =>
    rw [if_neg Bool.false_ne_true]
    simp only [candidateBefore, Candidate.before, Candidate.ofVerdicts, List.map_map]
    refine List.map_congr_left fun h hmem => ?_
    have hmode : s.mode.isDebug = false := by
      unfold triesFit SelectionMode.evaluates at htries
      exact (Bool.or_eq_false_iff.mp htries).1
    rw [Function.comp_apply, Function.comp_apply, h.failed_verdictBefore]
    unfold SelectionMode.recorded
    rw [hmode, if_neg Bool.false_ne_true, if_neg Bool.false_ne_true]
    by_cases henabled : h.enabled = true
    · -- The failure before the fit comes first, so the vertex makes no difference.
      obtain ⟨first, rest, hfailures⟩ :=
        List.exists_cons_of_ne_nil (failuresBefore_of_skipped hs htries hmem henabled)
      rw [hfailures]
      rfl
    · have hnone : ∀ after, h.failuresAfter after = [] := fun after => if_neg henabled
      cases s.fitter prongs with
      | none => rw [List.append_nil]
      | some vertex => simp only [hnone, List.append_nil]

/-- There is one status byte for each hypothesis. -/
theorem length_statusBytes_outcome {s : Search} (hs : s.WellFormed) (arity : Arity)
    (primary : Position) (prongs : List Track) :
    (s.outcome arity primary prongs).candidate.statusBytes.length =
      (s.hypotheses.group arity).size := by
  have hfailed := congrArg List.length (map_failed_outcome hs arity primary prongs)
  rw [List.length_map, List.length_map] at hfailed
  unfold Candidate.statusBytes
  rw [List.length_map, hfailed]
  rfl

variable {s d : Search} (h : d.DebugOf s)
include h

theorem failures_of_debugOf (primary : Position) (prongs : List Track) :
    d.failures primary prongs = s.failures primary prongs := by
  funext hyp
  unfold failures
  rw [h.fitter, h.ptTolerance]

/-- For each hypothesis, production clears the first stage that debug mode clears. -/
theorem clearedStages_outcome (hs : s.WellFormed) (arity : Arity) (primary : Position)
    (prongs : List Track) :
    (s.outcome arity primary prongs).candidate.statusBytes.map clearedStages =
      ((d.outcome arity primary prongs).candidate.statusBytes.map clearedStages).map
        (·.take 1) := by
  rw [Candidate.map_clearedStages, Candidate.map_clearedStages, map_failed_outcome hs,
    map_failed_outcome (h.wellFormed hs), List.map_map, h.hypotheses,
    failures_of_debugOf h]
  unfold SelectionMode.recorded
  rw [h.production, h.debug]
  rfl

end Search

end DecaySearch
