-- What the selections make of one hypothesis. Each selection first finds
-- something out, which no mode can change, and the mode only decides which parts
-- of it are recorded.
import DecaySearch.Proofs.CandidateRows
import DecaySearch.Proofs.WellFormed

namespace DecaySearch

namespace Verdict

/-- Records a mass match, and the failure if there is none. -/
def recordMass (matched : PermutationMatch) (v : Verdict) : Verdict :=
  if matched.any then v.withMatch matched else (v.withMatch matched).reject .mass

theorem alive_recordMass (matched : PermutationMatch) (v : Verdict) :
    (v.recordMass matched).alive = (v.alive && matched.any) := by
  unfold recordMass
  cases matched.any <;> simp [withMatch, reject]

theorem matched_recordMass (matched : PermutationMatch) (v : Verdict) :
    (v.recordMass matched).matched = matched := by
  unfold recordMass
  split <;> rfl

/-- A hypothesis that nobody looks at any more has been lost before. -/
theorem alive_rejectIf (mode : SelectionMode) (fails : Bool) (v : Verdict) (stage : CutStage) :
    (v.rejectIf mode fails stage).alive = (v.alive && !fails) := by
  unfold rejectIf
  cases fails <;> cases hv : v.alive <;> cases mode <;>
    simp [SelectionMode.evaluates, SelectionMode.isDebug, reject, hv]

theorem matched_rejectIf (mode : SelectionMode) (fails : Bool) (v : Verdict) (stage : CutStage) :
    (v.rejectIf mode fails stage).matched = v.matched := by
  unfold rejectIf
  split <;> rfl

end Verdict

/-! ## Findings before the fit -/

/-- What the cuts before the fit find out about a hypothesis. -/
inductive PreFitFinding
  /-- The transverse momentum lies in no bin. -/
  | noBin
  /-- The mass assignments that match, and whether the product is too large. -/
  | tested (matched : PermutationMatch) (exceeds : Bool)

namespace PreFitFinding

/-- Truth that no cut fails. -/
def passes : PreFitFinding → Bool
  | .noBin => false
  | .tested matched exceeds => matched.any && !exceeds

/-- The mass match that is recorded. -/
def matched : PreFitFinding → PermutationMatch
  | .noBin => .none
  | .tested matched _ => matched

/-- The verdict that a finding leads to. -/
def judge (mode : SelectionMode) (v : Verdict) : PreFitFinding → Verdict
  | .noBin => (v.reject .preFitPt).withMatch .none
  | .tested matched exceeds =>
    (v.recordMass matched).rejectIf mode exceeds .impactParameterProduct

theorem alive_judge (mode : SelectionMode) (v : Verdict) (f : PreFitFinding) :
    (f.judge mode v).alive = (v.alive && f.passes) := by
  cases f with
  | noBin => exact (Bool.and_false v.alive).symm
  | tested matched exceeds =>
    rw [judge, Verdict.alive_rejectIf, Verdict.alive_recordMass, passes, Bool.and_assoc]

theorem matched_judge (mode : SelectionMode) (v : Verdict) (f : PreFitFinding) :
    (f.judge mode v).matched = f.matched := by
  cases f with
  | noBin => rfl
  | tested m exceeds =>
    rw [judge, Verdict.matched_rejectIf, Verdict.matched_recordMass, matched]

end PreFitFinding

/-! ## Findings after the fit -/

/-- What the cuts after the fit find out about a hypothesis. -/
inductive PostFitFinding
  /-- The transverse momentum lies in no bin. -/
  | noBin
  /-- Whether the momentum points back, and whether the flight is too short. -/
  | tested (points short : Bool)

namespace PostFitFinding

/-- Truth that no cut fails. -/
def passes : PostFitFinding → Bool
  | .noBin => false
  | .tested points short => points && !short

/-- The verdict that a finding leads to. -/
def judge (mode : SelectionMode) (v : Verdict) : PostFitFinding → Verdict
  | .noBin => v.reject .postFitPt
  | .tested points short =>
    (v.rejectIf mode (!points) .cosPointingAngle).rejectIf mode short .decayLength

theorem alive_judge (mode : SelectionMode) (v : Verdict) (f : PostFitFinding) :
    (f.judge mode v).alive = (v.alive && f.passes) := by
  cases f with
  | noBin => exact (Bool.and_false v.alive).symm
  | tested points short =>
    rw [judge, Verdict.alive_rejectIf, Verdict.alive_rejectIf, Bool.not_not, passes,
      Bool.and_assoc]

theorem matched_judge (mode : SelectionMode) (v : Verdict) (f : PostFitFinding) :
    (f.judge mode v).matched = v.matched := by
  cases f with
  | noBin => rfl
  | tested points short => rw [judge, Verdict.matched_rejectIf, Verdict.matched_rejectIf]

end PostFitFinding

/-! ## What the cuts find -/

namespace DecayHypothesis

/-- The thresholds of a bin that apply before the fit. -/
def preFitCutsIn (h : DecayHypothesis) (i : Nat) : PreFitCuts where
  massMin := h.cuts.threshold i .massMin
  massMax := h.cuts.threshold i .massMax
  productMax :=
    match h.decay.arity with
    | .twoProng => some (h.cuts.threshold i .impactParameterProduct)
    | .threeProng => none

/-- The thresholds of a bin that apply after the fit. -/
def postFitCutsIn (h : DecayHypothesis) (i : Nat) : PostFitCuts where
  cosMin := h.cuts.threshold i .cosPointingAngle
  lengthMin :=
    match h.decay.arity with
    | .twoProng => none
    | .threeProng => some (h.cuts.threshold i .decayLength)

/-- Which mass assignments lie in the window of some thresholds. -/
def matchIn (h : DecayHypothesis) (cuts : PreFitCuts) (momenta : List Momentum) :
    PermutationMatch :=
  if cuts.hasMassWindow then
    .ofVerdicts (cuts.admitsMass (Kinematics.massSquared momenta h.decay.massAssignments.1))
      (cuts.admitsMass (Kinematics.massSquared momenta h.decay.massAssignments.2))
  else .both

/-- What the cuts before the fit find out. -/
def preFitFinding (h : DecayHypothesis) (q : PreFitQuantities) : PreFitFinding :=
  match h.cuts.findBin q.pt with
  | none => .noBin
  | some bin =>
    .tested (h.matchIn (h.preFitCutsIn bin.index) q.momenta)
      ((h.preFitCutsIn bin.index).exceedsProduct q.product)

/-- What the cuts after the fit find out. -/
def postFitFinding (h : DecayHypothesis) (q : PostFitQuantities) : PostFitFinding :=
  match h.cuts.findBin q.pt with
  | none => .noBin
  | some bin =>
    .tested ((h.postFitCutsIn bin.index).cosMin ≤ q.cosPointing)
      ((h.postFitCutsIn bin.index).fallsShort q.decayLength)

/-- Reading the thresholds of a bin that was found never fails. -/
theorem preFitCuts_of_inBin {h : DecayHypothesis} (hw : h.WellFormed) {bin : PtBin} {x : Float}
    (hb : h.cuts.InBin bin.index x) : h.preFitCuts bin = .ok (h.preFitCutsIn bin.index) := by
  have hget : ∀ v ∈ h.decay.arity.requiredCuts,
      h.cuts.get bin v = .ok (h.cuts.threshold bin.index v) :=
    fun v hv => CutTable.get_of_inBin hw.table (hw.columns v hv) hb
  unfold preFitCuts preFitCutsIn
  cases ha : h.decay.arity with
  | twoProng =>
    rw [ha] at hget
    rw [hget .massMin (by decide), hget .massMax (by decide),
      hget .impactParameterProduct (by decide)]
    rfl
  | threeProng =>
    rw [ha] at hget
    rw [hget .massMin (by decide), hget .massMax (by decide)]
    rfl

theorem postFitCuts_of_inBin {h : DecayHypothesis} (hw : h.WellFormed) {bin : PtBin} {x : Float}
    (hb : h.cuts.InBin bin.index x) : h.postFitCuts bin = .ok (h.postFitCutsIn bin.index) := by
  have hget : ∀ v ∈ h.decay.arity.requiredCuts,
      h.cuts.get bin v = .ok (h.cuts.threshold bin.index v) :=
    fun v hv => CutTable.get_of_inBin hw.table (hw.columns v hv) hb
  unfold postFitCuts postFitCutsIn
  cases ha : h.decay.arity with
  | twoProng =>
    rw [ha] at hget
    rw [hget .cosPointingAngle (by decide)]
    rfl
  | threeProng =>
    rw [ha] at hget
    rw [hget .cosPointingAngle (by decide), hget .decayLength (by decide)]
    rfl

theorem massMatch_eq (h : DecayHypothesis) (cuts : PreFitCuts) {momenta : List Momentum}
    (hlen : momenta.length = h.decay.arity.prongs) :
    h.massMatch cuts momenta = .ok (h.matchIn cuts momenta) := by
  obtain ⟨h1, h2⟩ := Decay.length_massAssignments h.decay
  have hmass : h.massesSquared momenta =
      .ok (Kinematics.massSquared momenta h.decay.massAssignments.1,
        Kinematics.massSquared momenta h.decay.massAssignments.2) := by
    simp only [massesSquared, Kinematics.assignedMassSquared, hlen, h1, h2, if_true]
    rfl
  unfold massMatch matchIn
  split
  · rw [hmass]
  · rfl

end DecayHypothesis

/-! ## The two selections of a hypothesis -/

namespace DecayHypothesis

/-- What the cuts before the fit make of a verdict. -/
def judgedBefore (mode : SelectionMode) (q : PreFitQuantities) (h : DecayHypothesis)
    (v : Verdict) : Verdict :=
  if h.enabled && mode.evaluates v.alive then (h.preFitFinding q).judge mode v else v

/-- What the cuts after the fit make of a verdict. -/
def judgedAfter (mode : SelectionMode) (q : PostFitQuantities) (h : DecayHypothesis)
    (v : Verdict) : Verdict :=
  if h.enabled && mode.evaluates v.alive then (h.postFitFinding q).judge mode v else v

end DecayHypothesis

open Candidate (ActsAt)

theorem Preselector.actsAt_judgeMass (matched : PermutationMatch) (bit : Nat) :
    ActsAt bit (Preselector.judgeMass matched · bit) (·.recordMass matched) := by
  unfold Preselector.judgeMass Verdict.recordMass
  cases matched.any with
  | true => exact (Candidate.actsAt_recordMatch bit matched).bind (Candidate.actsAt_pure bit)
  | false =>
    exact (Candidate.actsAt_recordMatch bit matched).bind (Candidate.actsAt_reject bit .mass)

/-- Before the fit, a hypothesis that is looked at is judged by what is found. -/
theorem Preselector.actsAt_judge {h : DecayHypothesis} (hw : h.WellFormed) (mode : SelectionMode)
    (q : PreFitQuantities) (hlen : q.momenta.length = h.decay.arity.prongs) (bit : Nat) :
    ActsAt bit (Preselector.judge mode q h bit) fun v => (h.preFitFinding q).judge mode v := by
  unfold Preselector.judge DecayHypothesis.preFitFinding
  cases hbin : h.cuts.findBin q.pt with
  | none =>
    exact (Candidate.actsAt_reject bit .preFitPt).bind (Candidate.actsAt_recordMatch bit .none)
  | some bin =>
    have hb := (CutTable.findBin_eq_some_iff hw.table q.pt bin).mp hbin
    simp only [DecayHypothesis.preFitCuts_of_inBin hw hb, DecayHypothesis.massMatch_eq h _ hlen]
    exact (actsAt_judgeMass _ bit).bind (Candidate.actsAt_rejectIf mode _ bit _)

/-- After the fit, a hypothesis that is looked at is judged by what is found. -/
theorem Postselector.actsAt_judge {h : DecayHypothesis} (hw : h.WellFormed)
    (mode : SelectionMode) (q : PostFitQuantities) (bit : Nat) :
    ActsAt bit (Postselector.judge mode q h bit) fun v => (h.postFitFinding q).judge mode v := by
  unfold Postselector.judge DecayHypothesis.postFitFinding
  cases hbin : h.cuts.findBin q.pt with
  | none => exact Candidate.actsAt_reject bit .postFitPt
  | some bin =>
    have hb := (CutTable.findBin_eq_some_iff hw.table q.pt bin).mp hbin
    simp only [DecayHypothesis.postFitCuts_of_inBin hw hb]
    exact (Candidate.actsAt_rejectIf mode _ bit _).bind (Candidate.actsAt_rejectIf mode _ bit _)

end DecaySearch
