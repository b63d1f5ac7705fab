-- The tally of hypotheses, seen one hypothesis at a time. A combination counts once for
-- each hypothesis in its mask, under the mass match that the cuts before the fit found,
-- and the tallies of parts add up.
import DecaySearch.Proofs.Acceptance
import DecaySearch.Proofs.DebugRuns

namespace DecaySearch

/-! ## The counts of one hypothesis -/

namespace MatchCounts

theorem get_zero (m : PermutationMatch) : zero.get m = 0 := by
  cases m <;> rfl

theorem get_add (a b : MatchCounts) (m : PermutationMatch) :
    (a.add b).get m = a.get m + b.get m := by
  cases m <;> rfl

end MatchCounts

namespace HypothesisTally

theorem get_zero (bit : Nat) : zero.get bit = .zero := by
  unfold get zero
  by_cases h : bit < maxHypotheses
  · simp [h]
  · simp [Nat.le_of_not_lt h]

theorem get_add (a b : HypothesisTally) (bit : Nat) :
    (a.add b).get bit = (a.get bit).add (b.get bit) := by
  unfold get add
  by_cases h : bit < maxHypotheses
  · simp [h]
  · simp [Nat.le_of_not_lt h, HypothesisCount.add, HypothesisCount.zero, MatchCounts.add,
      MatchCounts.zero]

@[simp]
theorem accepted_zero (bit : Nat) : zero.accepted bit = 0 := by
  unfold accepted
  rw [get_zero]
  rfl

@[simp]
theorem matched_zero (bit : Nat) (m : PermutationMatch) : zero.matched bit m = 0 := by
  unfold matched
  rw [get_zero]
  exact MatchCounts.get_zero m

@[simp]
theorem accepted_add (a b : HypothesisTally) (bit : Nat) :
    (a.add b).accepted bit = a.accepted bit + b.accepted bit := by
  unfold accepted
  rw [get_add]
  rfl

@[simp]
theorem matched_add (a b : HypothesisTally) (bit : Nat) (m : PermutationMatch) :
    (a.add b).matched bit m = a.matched bit m + b.matched bit m := by
  unfold matched
  rw [get_add]
  exact MatchCounts.get_add _ _ m

theorem get_countBit (t : HypothesisTally) {bit : Nat} (h : bit < maxHypotheses)
    (found : List PermutationMatch) (other : Nat) :
    (t.countBit bit found).get other =
      if bit = other then (t.get other).record (found.getD bit .none) else t.get other := by
  unfold countBit get
  rw [dif_pos h]
  by_cases hsame : bit = other
  · subst hsame
    simp [h]
  · simp [hsame]

/-- A hypothesis is counted once if it is among those that are counted. -/
theorem get_foldl_countBit (found : List PermutationMatch) (bit : Nat) {bits : List Nat}
    (hplace : ∀ b ∈ bits, b < maxHypotheses) (hnodup : bits.Nodup) (t : HypothesisTally) :
    (bits.foldl (fun t b => t.countBit b found) t).get bit =
      if bit ∈ bits then (t.get bit).record (found.getD bit .none) else t.get bit := by
  induction bits generalizing t with
  | nil => rfl
  | cons b rest ih =>
    obtain ⟨hnew, hrest⟩ := List.nodup_cons.mp hnodup
    have hb := get_countBit t (hplace b List.mem_cons_self) found bit
    rw [List.foldl_cons, ih (fun c hc => hplace c (List.mem_cons_of_mem b hc)) hrest, hb]
    by_cases hsame : b = bit
    · subst hsame
      simp [hnew]
    · simp [hsame, Ne.symm hsame]

section

variable {mask : HypothesisMask} (h : ∀ bit, mask.contains bit = true → bit < maxHypotheses)
  (found : List PermutationMatch) (bit : Nat)

include h

theorem get_ofMatches :
    (ofMatches mask found).get bit =
      if mask.contains bit then HypothesisCount.zero.record (found.getD bit .none)
      else .zero := by
  have hplace : ∀ b ∈ mask.toList, b < maxHypotheses := fun b hb =>
    h b ((HypothesisMask.mem_toList mask b).mp hb).2
  have hnodup : mask.toList.Nodup := List.nodup_range.filter _
  have hmem : bit ∈ mask.toList ↔ mask.contains bit = true := by
    rw [HypothesisMask.mem_toList]
    constructor
    · exact And.right
    · intro hbit
      have hlt := h bit hbit
      simp only [maxHypotheses, HypothesisMask.capacity] at *
      exact ⟨by omega, hbit⟩
  unfold ofMatches
  rw [get_foldl_countBit found bit hplace hnodup, get_zero]
  simp only [hmem]

theorem accepted_ofMatches :
    (ofMatches mask found).accepted bit = (mask.contains bit).toNat := by
  unfold accepted
  rw [get_ofMatches h]
  cases mask.contains bit <;> rfl

theorem matched_ofMatches (m : PermutationMatch) :
    (ofMatches mask found).matched bit m =
      (mask.contains bit && decide (found.getD bit .none = m)).toNat := by
  unfold matched
  rw [get_ofMatches h]
  cases mask.contains bit with
  | false => exact MatchCounts.get_zero m
  | true =>
    show (MatchCounts.zero.record _).get m = _
    rw [MatchCounts.get_record, MatchCounts.get_zero]
    by_cases hm : found.getD bit .none = m
    · rw [if_pos hm, decide_eq_true hm]
      rfl
    · rw [if_neg hm, decide_eq_false hm]
      rfl

end

end HypothesisTally

/-! ## The counts of a combination -/

namespace Evaluation

/-- Truth that the candidate goes into the output of an arity under a hypothesis. -/
def acceptsAs (arity : Arity) (bit : Nat) (e : Evaluation) : Bool :=
  e.acceptedAs arity && e.candidate.hypotheses.contains bit

/-- The mass match of a hypothesis of the candidate. -/
def matchOf (e : Evaluation) (bit : Nat) : PermutationMatch :=
  e.candidate.permutations.getD bit .none

/-- A combination has a row with a hypothesis if it is accepted under it. -/
theorem countP_rows (mode : SelectionMode) (arity : Arity) (bit : Nat) (e : Evaluation) :
    (e.rows mode arity).countP (·.hypotheses.contains bit) = (e.acceptsAs arity bit).toNat := by
  unfold rows acceptsAs
  cases e.acceptedAs arity with
  | false => rfl
  | true =>
    rw [if_pos rfl, List.countP_singleton, Bool.true_and]
    show (if e.candidate.hypotheses.contains bit = true then 1 else 0) = _
    cases e.candidate.hypotheses.contains bit <;> rfl

variable {e : Evaluation}
  (h : ∀ bit, e.candidate.hypotheses.contains bit = true → bit < maxHypotheses)
  (arity : Arity) (bit : Nat)

include h

theorem accepted_tally : (e.tally arity).accepted bit = (e.acceptsAs arity bit).toNat := by
  unfold tally acceptsAs
  cases e.acceptedAs arity with
  | false => exact HypothesisTally.accepted_zero bit
  | true => exact HypothesisTally.accepted_ofMatches h _ bit

theorem matched_tally (m : PermutationMatch) :
    (e.tally arity).matched bit m =
      (e.acceptsAs arity bit && decide (e.matchOf bit = m)).toNat := by
  unfold tally acceptsAs
  cases e.acceptedAs arity with
  | false => exact HypothesisTally.matched_zero bit m
  | true => exact HypothesisTally.matched_ofMatches h _ bit m

/-- A mass match that the candidate does not have is not counted. -/
theorem matched_tally_of_ne {m : PermutationMatch}
    (hne : e.acceptsAs arity bit = true → e.matchOf bit ≠ m) :
    (e.tally arity).matched bit m = 0 := by
  rw [matched_tally h]
  cases haccepts : e.acceptsAs arity bit with
  | false => rfl
  | true =>
    rw [decide_eq_false (hne haccepts)]
    rfl

/-- With a mass match, a candidate counts for one of the three kinds. -/
theorem accepted_tally_eq_sum (hne : e.acceptsAs arity bit = true → e.matchOf bit ≠ .none) :
    (e.tally arity).accepted bit = (e.tally arity).matched bit .first +
      (e.tally arity).matched bit .second + (e.tally arity).matched bit .both := by
  rw [accepted_tally h, matched_tally h, matched_tally h, matched_tally h]
  cases haccepts : e.acceptsAs arity bit with
  | false => rfl
  | true =>
    have hmatched := hne haccepts
    cases hmatch : e.matchOf bit with
    | none => exact absurd hmatch hmatched
    | first => rfl
    | second => rfl
    | both => rfl

end Evaluation

/-! ## The counts of an outcome -/

/-- A hypothesis that passes the cuts before the fit has a mass match. -/
theorem PreFitFinding.matched_ne_none {f : PreFitFinding} (h : f.passes = true) :
    f.matched ≠ .none := by
  cases f with
  | noBin => cases h
  | tested m exceeds =>
    intro hnone
    rw [show m = .none from hnone] at h
    cases h

namespace Search

variable {s : Search} (hs : s.WellFormed) (arity : Arity) (primary : Position)
  (prongs : List Track) (bit : Nat)

include hs

theorem place_of_outcome :
    (s.outcome arity primary prongs).candidate.hypotheses.contains bit = true →
      bit < maxHypotheses := fun h => (lt_of_contains_outcome hs arity primary prongs bit h).1

/-- An outcome is only accepted in the arity that it was evaluated in. -/
theorem arity_of_acceptsAs {a : Arity} {bit : Nat}
    (h : (s.outcome arity primary prongs).acceptsAs a bit = true) : a = arity := by
  unfold Evaluation.acceptsAs Evaluation.acceptedAs at h
  rw [Bool.and_eq_true, Bool.and_eq_true, decide_eq_true_iff, arity_outcome,
    hs.hypotheses.arities] at h
  exact h.1.2.symm

/-- An outcome is accepted under a hypothesis of its arity that passes all cuts. -/
theorem acceptsAs_outcome_iff {a : Arity} {prongs : List Track}
    (h : a.Follows (prongs.map (·.sign))) (primary : Position) :
    (s.outcome a primary prongs).acceptsAs arity bit = true ↔
      a = arity ∧ s.Accepts a primary prongs bit := by
  rw [← outcome_accepts_iff hs h]
  unfold Evaluation.acceptsAs Evaluation.acceptedAs
  rw [Bool.and_eq_true, Bool.and_eq_true, decide_eq_true_iff, arity_outcome,
    hs.hypotheses.arities]
  constructor
  · rintro ⟨⟨haccepted, harity⟩, hcontains⟩
    exact ⟨harity, haccepted, hcontains⟩
  · rintro ⟨harity, haccepted, hcontains⟩
    exact ⟨⟨haccepted, harity⟩, hcontains⟩

/-- There is a row with some tracks and a hypothesis if a combination of these tracks
passes all cuts of the hypothesis. -/
theorem exists_row_iff (event : Event) (ids : List TrackId) :
    (∃ row ∈ (s.report event).output.rows arity,
        row.tracks = ids ∧ row.hypotheses.contains bit = true) ↔
      ∃ prongs ∈ s.formed event, prongs.map (·.id) = ids ∧
        Combination.arityOf prongs = arity ∧ s.Accepts arity event.primaryVertex prongs bit := by
  have hbit : ∀ prongs ∈ s.formed event,
      ((s.outcome (Combination.arityOf prongs) event.primaryVertex prongs).acceptedAs arity =
          true ∧
        (s.outcome (Combination.arityOf prongs) event.primaryVertex
          prongs).candidate.hypotheses.contains bit = true) ↔
      Combination.arityOf prongs = arity ∧ s.Accepts arity event.primaryVertex prongs bit := by
    intro prongs hprongs
    have haccepts := acceptsAs_outcome_iff hs arity bit (follows_of_mem_formed hprongs)
      event.primaryVertex
    unfold Evaluation.acceptsAs at haccepts
    rw [Bool.and_eq_true] at haccepts
    rw [haccepts]
    apply and_congr_right
    rintro rfl
    rfl
  constructor
  · rintro ⟨row, hrow, hids, hcontains⟩
    obtain ⟨prongs, hprongs, haccepted, rfl⟩ := (mem_rows_report_iff s event arity row).mp hrow
    refine ⟨prongs, hprongs, ?_, (hbit prongs hprongs).mp ⟨haccepted, hcontains⟩⟩
    rw [← hids]
    exact congrArg (List.map (·.id)) (prongs_outcome s _ _ prongs).symm
  · rintro ⟨prongs, hprongs, hids, harity⟩
    obtain ⟨haccepted, hcontains⟩ := (hbit prongs hprongs).mpr harity
    refine ⟨_, (mem_rows_report_iff s event arity _).mpr ⟨prongs, hprongs, haccepted, rfl⟩, ?_,
      hcontains⟩
    rw [← hids]
    exact congrArg (List.map (·.id)) (prongs_outcome s _ _ prongs)

/-- A hypothesis that an outcome is accepted under has passed both selections, and its
mass match is the one that was found before the fit. -/
theorem matchOf_of_acceptsAs {a : Arity}
    (h : (s.outcome arity primary prongs).acceptsAs a bit = true) :
    ∃ vertex hyp, s.fitter prongs = some vertex ∧
      (s.hypotheses.group arity).hypotheses[bit]? = some hyp ∧ hyp.enabled = true ∧
      (hyp.preFitFinding (.ofProngs s.preselector.ptTolerance prongs)).passes = true ∧
      (hyp.postFitFinding (.ofVertex vertex primary)).passes = true ∧
      (s.outcome arity primary prongs).matchOf bit =
        (hyp.preFitFinding (.ofProngs s.preselector.ptTolerance prongs)).matched := by
  have hg := hs.hypotheses.groups arity
  unfold Evaluation.acceptsAs Evaluation.acceptedAs at h
  rw [Bool.and_eq_true, Bool.and_eq_true] at h
  obtain ⟨⟨haccepted, _⟩, hcontains⟩ := h
  obtain ⟨vertex, htry, hvertex⟩ := outcome_of_accepted haccepted
  rw [outcome_of_vertex htry hvertex] at hcontains ⊢
  obtain ⟨hyp, hget, henabled, hbefore, hafter⟩ :=
    (Candidate.contains_after hg _ _ _ _ _ _).mp hcontains
  refine ⟨vertex, hyp, hvertex, hget, henabled, hbefore, hafter, ?_⟩
  have hmatched : (hyp.verdictAfter s.mode (.ofProngs s.preselector.ptTolerance prongs)
      (.ofVertex vertex primary)).matched =
      (hyp.preFitFinding (.ofProngs s.preselector.ptTolerance prongs)).matched := by
    rw [DecayHypothesis.matched_verdictAfter, DecayHypothesis.matched_verdictBefore,
      if_pos henabled]
  rw [← hmatched]
  unfold Evaluation.matchOf candidateAfter Candidate.after Candidate.ofVerdicts
  simp [hget]

end Search

end DecaySearch
