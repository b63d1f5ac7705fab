-- Hypotheses do not interfere with each other. What an output says about a hypothesis is
-- settled by its own cuts, combination by combination, although all hypotheses of an arity
-- share one candidate, one mask and one fit.
import DecaySearch.Proofs.Acceptance
import DecaySearch.Proofs.HypothesisTallies
import DecaySearch.Proofs.TrackTallies

namespace DecaySearch

/-! ## What an output says about one hypothesis -/

/-- Two outputs that say the same about a hypothesis: its rows are for the same tracks, in the
same order, and its counts are the same. -/
structure EventOutput.SameFor (arity : Arity) (bit : Nat) (a b : EventOutput) : Prop where
  tracks : ((a.rows arity).filter (·.hypotheses.contains bit)).map (·.tracks) =
    ((b.rows arity).filter (·.hypotheses.contains bit)).map (·.tracks)
  accepted : (a.tally arity).accepted bit = (b.tally arity).accepted bit
  matched : ∀ m, (a.tally arity).matched bit m = (b.tally arity).matched bit m

/-- A row without a hypothesis, unless nothing is left of it. The status of a hypothesis that
is not tested is that of one that fails nowhere. -/
def CandidateRow.without (bit : Nat) (r : CandidateRow) : Option CandidateRow :=
  if (r.hypotheses.remove bit).isEmpty then none
  else
    some
      { r with
        hypotheses := r.hypotheses.remove bit
        cutStatus := r.cutStatus.map (·.set bit CutStatus.allPassed.packed) }

/-- An output that has lost a hypothesis of another one, and nothing else. -/
structure EventOutput.Loses (arity : Arity) (bit : Nat) (a b : EventOutput) : Prop where
  rows : b.rows arity = (a.rows arity).filterMap (·.without bit)
  otherRows : ∀ other, other ≠ arity → b.rows other = a.rows other
  cascades : b.cascades = a.cascades
  tracks : b.tracks = a.tracks
  taggedTracks : b.counts.taggedTracks = a.counts.taggedTracks
  uncounted : (b.tally arity).accepted bit = 0 ∧ ∀ m, (b.tally arity).matched bit m = 0
  others : ∀ other n, other ≠ arity ∨ n ≠ bit → a.SameFor other n b

/-! ## Disabled hypotheses -/

namespace DecayHypothesis

def disabled (h : DecayHypothesis) : DecayHypothesis := { h with enabled := false }

theorem verdictAfter_disabled (mode : SelectionMode) (q : PreFitQuantities)
    (after : PostFitQuantities) (h : DecayHypothesis) :
    h.disabled.verdictAfter mode q after = .start false := rfl

end DecayHypothesis

namespace HypothesisGroup

/-- Disables the hypothesis of a bit, if there is one. -/
def disable (g : HypothesisGroup) (bit : Nat) : HypothesisGroup :=
  { g with hypotheses := g.hypotheses.modify bit .disabled }

theorem getElem?_disable (g : HypothesisGroup) (bit n : Nat) :
    (g.disable bit).hypotheses[n]? =
      g.hypotheses[n]?.map fun h => if bit = n then h.disabled else h :=
  List.getElem?_modify _ _ _ _

/-- Disabling a hypothesis keeps its decay, its place and its cuts. -/
theorem wellFormed_disable {g : HypothesisGroup} (hg : g.WellFormed) (bit : Nat) :
    (g.disable bit).WellFormed := by
  have hlength : (g.disable bit).hypotheses.length = g.hypotheses.length :=
    List.length_modify _ _ _
  have hsame : ∀ (i : Nat) (hi : i < (g.disable bit).hypotheses.length),
      (g.disable bit).hypotheses[i] = g.hypotheses[i] ∨
        (g.disable bit).hypotheses[i] = g.hypotheses[i].disabled := by
    intro i hi
    have heq : (g.disable bit).hypotheses[i] =
        if bit = i then g.hypotheses[i].disabled else g.hypotheses[i] :=
      List.getElem_modify _ _ _ _ _
    rw [heq]
    split
    · exact Or.inr rfl
    · exact Or.inl rfl
  constructor
  · intro h hmem
    obtain ⟨i, hi, rfl⟩ := List.getElem_of_mem hmem
    have hmember := hg.members _ (List.getElem_mem (hlength ▸ hi))
    rcases hsame i hi with heq | heq
    · exact heq ▸ hmember
    · exact heq ▸ ⟨hmember.table, hmember.columns⟩
  · intro h hmem
    obtain ⟨i, hi, rfl⟩ := List.getElem_of_mem hmem
    have harity := hg.same_arity _ (List.getElem_mem (hlength ▸ hi))
    rcases hsame i hi with heq | heq
    · exact heq ▸ harity
    · exact heq ▸ harity
  · intro i hi
    have hbit := hg.own_bit i (hlength ▸ hi)
    rcases hsame i hi with heq | heq
    · exact heq ▸ hbit
    · exact heq ▸ hbit

end HypothesisGroup

namespace HypothesisSet

/-- Disables the hypothesis of a bit of an arity, if there is one. -/
def disable (s : HypothesisSet) (arity : Arity) (bit : Nat) : HypothesisSet :=
  match arity with
  | .twoProng => { s with twoProng := s.twoProng.disable bit }
  | .threeProng => { s with threeProng := s.threeProng.disable bit }

theorem group_disable (s : HypothesisSet) (arity other : Arity) (bit : Nat) :
    (s.disable arity bit).group other =
      if arity = other then (s.group other).disable bit else s.group other := by
  cases arity <;> cases other <;> rfl

theorem wellFormed_disable {s : HypothesisSet} (hs : s.WellFormed) (arity : Arity) (bit : Nat) :
    (s.disable arity bit).WellFormed := by
  constructor
  · intro other
    rw [group_disable]
    split
    · exact HypothesisGroup.wellFormed_disable (hs.groups other) bit
    · exact hs.groups other
  · intro other
    rw [group_disable]
    split
    · exact hs.arities other
    · exact hs.arities other

end HypothesisSet

/-! ## Rows and counts of one hypothesis -/

/-- An evaluation has a row with a hypothesis if it is accepted under it. -/
theorem Evaluation.tracks_rows (mode : SelectionMode) (arity : Arity) (bit : Nat)
    (e : Evaluation) :
    ((e.rows mode arity).filter (·.hypotheses.contains bit)).map (·.tracks) =
      if e.acceptsAs arity bit then [e.candidate.prongs.map (·.id)] else [] := by
  unfold rows acceptsAs
  cases e.acceptedAs arity with
  | false => rfl
  | true =>
    rw [if_pos rfl, List.filter_singleton, Bool.true_and]
    show List.map _ (bif e.candidate.hypotheses.contains bit then _ else _) = _
    cases e.candidate.hypotheses.contains bit <;> rfl

namespace Search

variable (s : Search) (event : Event)

/-- The combinations of an event that are accepted under a hypothesis. -/
def acceptedUnder (arity : Arity) (bit : Nat) : List (List Track) :=
  (s.formed event).filter fun prongs =>
    (s.outcome (Combination.arityOf prongs) event.primaryVertex prongs).acceptsAs arity bit

/-- The rows of a hypothesis are those of the combinations that are accepted under it. -/
theorem tracks_rows_report (arity : Arity) (bit : Nat) :
    (((s.report event).output.rows arity).filter (·.hypotheses.contains bit)).map (·.tracks) =
      (s.acceptedUnder event arity bit).map (·.map (·.id)) := by
  rw [rows_report]
  unfold evaluations acceptedUnder
  induction s.formed event with
  | nil => rfl
  | cons prongs rest ih =>
    rw [List.map_cons, List.flatMap_cons, List.filter_append, List.map_append, ih,
      Evaluation.tracks_rows, prongs_outcome, List.filter_cons]
    split
    · rfl
    · rfl

/-- The tally of an arity is the sum over the evaluations. -/
theorem tally_report (arity : Arity) :
    (s.report event).output.tally arity =
      ((s.evaluations event).map (·.tally arity)).foldr .add .zero := by
  have hreport : ∀ e : Evaluation, (e.report s.mode).output.tally arity = e.tally arity := by
    intro e
    cases arity <;> rfl
  have htags : (tagOutput (s.tagged event)).tally arity = .zero := by
    cases arity <;> rfl
  have hcascades : (EventReport.ofCascades (s.cascadesOf event)).output.tally arity = .zero := by
    cases arity <;> rfl
  have hempty : (EventReport.empty true).output.tally arity = .zero := by
    cases arity <;> rfl
  unfold report
  rw [EventReport.fold_concat (fun r => r.output.tally arity) .add fun a b =>
    EventOutput.tally_append a.output b.output arity]
  unfold parts
  rw [List.map_cons, List.foldr_cons, List.map_append, List.foldr_append, List.map_map,
    List.map_singleton, List.foldr_cons, List.foldr_nil, htags, hcascades, hempty,
    HypothesisTally.zero_add, HypothesisTally.zero_add]
  simp only [Function.comp_def, hreport]

/-- A count of the report is the number of combinations that add to it. -/
theorem count_report (count : HypothesisTally → Nat) (hzero : count .zero = 0)
    (hadd : ∀ a b, count (a.add b) = count a + count b) {arity : Arity}
    {counted : List Track → Bool}
    (h : ∀ prongs, count
      ((s.outcome (Combination.arityOf prongs) event.primaryVertex prongs).tally arity) =
        (counted prongs).toNat) :
    count ((s.report event).output.tally arity) = (s.formed event).countP counted := by
  rw [tally_report]
  unfold evaluations
  induction s.formed event with
  | nil => exact hzero
  | cons prongs rest ih =>
    rw [List.map_cons, List.map_cons, List.foldr_cons, hadd, ih, h, List.countP_cons,
      Nat.add_comm]
    cases counted prongs <;> rfl

variable {s} (hs : s.WellFormed) (arity : Arity) (bit : Nat)

include hs

theorem accepted_report :
    ((s.report event).output.tally arity).accepted bit =
      (s.acceptedUnder event arity bit).length := by
  unfold acceptedUnder
  rw [← List.countP_eq_length_filter]
  apply count_report s event fun t => t.accepted bit
  · exact HypothesisTally.accepted_zero bit
  · intro a b
    exact HypothesisTally.accepted_add a b bit
  · intro prongs
    exact Evaluation.accepted_tally (place_of_outcome hs _ _ prongs) arity bit

theorem matched_report (m : PermutationMatch) :
    ((s.report event).output.tally arity).matched bit m =
      (s.acceptedUnder event arity bit).countP fun prongs =>
        (s.outcome (Combination.arityOf prongs) event.primaryVertex prongs).matchOf bit = m := by
  unfold acceptedUnder
  rw [List.countP_filter]
  apply count_report s event fun t => t.matched bit m
  · exact HypothesisTally.matched_zero bit m
  · intro a b
    exact HypothesisTally.matched_add a b bit m
  · intro prongs
    rw [Evaluation.matched_tally (place_of_outcome hs _ _ prongs), Bool.and_comm]

end Search

/-! ## Other hypotheses -/

namespace Search

/-- The same search for other hypotheses. -/
def withHypotheses (s : Search) (others : HypothesisSet) : Search :=
  { s with hypotheses := others }

theorem make_withHypotheses {selector : TrackSelector} {hypotheses : HypothesisSet}
    {fitter : Fitter} {settings : SearchSettings} {cascades : Option CascadeSettings} {s : Search}
    (h : make selector hypotheses fitter settings cascades = .ok s) (others : HypothesisSet) :
    make selector others fitter settings cascades = .ok (s.withHypotheses others) := by
  rw [make_eq_ok h]
  unfold make Preselector.make at h ⊢
  split at h
  · rename_i htolerance
    rw [if_pos htolerance]
    rfl
  · cases h

variable {s : Search} (hs : s.WellFormed) {others : HypothesisSet} (hothers : others.WellFormed)

include hs hothers

theorem wellFormed_withHypotheses : (s.withHypotheses others).WellFormed :=
  ⟨hs.selector, hothers⟩

variable {arity : Arity} {bit : Nat}
  (hentry : (others.group arity).hypotheses[bit]? = (s.hypotheses.group arity).hypotheses[bit]?)

omit hs hothers in
include hentry in
theorem accepts_withHypotheses (primary : Position) (prongs : List Track) :
    (s.withHypotheses others).Accepts arity primary prongs bit ↔
      s.Accepts arity primary prongs bit := by
  unfold Accepts withHypotheses
  rw [hentry]

include hentry

/-- Combinations are accepted under a hypothesis whatever the other hypotheses are. -/
theorem acceptedUnder_withHypotheses (event : Event) :
    (s.withHypotheses others).acceptedUnder event arity bit = s.acceptedUnder event arity bit := by
  unfold acceptedUnder
  apply List.filter_congr
  intro prongs hprongs
  have hfollows := follows_of_mem_formed (s := s) hprongs
  rw [Bool.eq_iff_iff, acceptsAs_outcome_iff (wellFormed_withHypotheses hs hothers) arity bit
      hfollows,
    acceptsAs_outcome_iff hs arity bit hfollows]
  apply and_congr_right
  rintro harity
  rw [harity]
  exact accepts_withHypotheses hentry event.primaryVertex prongs

theorem matchOf_withHypotheses {a : Arity} {primary : Position} {prongs : List Track}
    (h : (s.outcome a primary prongs).acceptsAs arity bit = true)
    (h' : ((s.withHypotheses others).outcome a primary prongs).acceptsAs arity bit = true) :
    ((s.withHypotheses others).outcome a primary prongs).matchOf bit =
      (s.outcome a primary prongs).matchOf bit := by
  obtain rfl := arity_of_acceptsAs hs a primary prongs h
  obtain ⟨_, hyp, _, hget, _, _, _, hmatch⟩ := matchOf_of_acceptsAs hs arity primary prongs bit h
  obtain ⟨_, hyp', _, hget', _, _, _, hmatch'⟩ :=
    matchOf_of_acceptsAs (wellFormed_withHypotheses hs hothers) arity primary prongs bit h'
  have hsame : hyp' = hyp := by
    have hboth := hget'.symm.trans (hentry.trans hget)
    exact Option.some.inj hboth
  rw [hmatch, hmatch', hsame]
  rfl

/-- An output says the same about a hypothesis whatever the other hypotheses are. -/
theorem sameFor_report (event : Event) :
    (s.report event).output.SameFor arity bit ((s.withHypotheses others).report event).output := by
  have hother := wellFormed_withHypotheses hs hothers
  have hsame := acceptedUnder_withHypotheses hs hothers hentry event
  constructor
  · rw [tracks_rows_report, tracks_rows_report, hsame]
  · rw [accepted_report event hs, accepted_report event hother, hsame]
  · intro m
    rw [matched_report event hs, matched_report event hother, hsame]
    apply List.countP_congr
    intro prongs hprongs
    have h' : prongs ∈ (s.withHypotheses others).acceptedUnder event arity bit := hsame ▸ hprongs
    have haccepts := (List.mem_filter.mp hprongs).2
    have haccepts' := (List.mem_filter.mp h').2
    rw [matchOf_withHypotheses hs hothers hentry haccepts haccepts']

end Search

/-! ## A disabled hypothesis -/

namespace Candidate

/-- A candidate for which a hypothesis was never tested. -/
def disable (c : Candidate) (bit : Nat) : Candidate :=
  { c with
    hypotheses := c.hypotheses.remove bit
    permutations := c.permutations.set bit .none
    status := c.status.set bit .allPassed }

theorem disable_ofVerdicts {verdicts : List Verdict}
    (h : verdicts.length ≤ HypothesisMask.capacity) (prongs : List Track) (arity : Arity)
    (vertex : Option FittedVertex) (bit : Nat) :
    ofVerdicts prongs arity (verdicts.set bit (.start false)) vertex =
      (ofVerdicts prongs arity verdicts vertex).disable bit := by
  have hmask : (HypothesisMask.ofFlags (verdicts.map (·.alive))).remove bit =
      .ofFlags ((verdicts.set bit (.start false)).map (·.alive)) := by
    rw [HypothesisMask.remove_ofFlags _ _ (by rwa [List.length_map]), List.map_set]
    rfl
  unfold disable ofVerdicts
  simp only [hmask, List.map_set]
  rfl

theorem toRow_disable (c : Candidate) (mode : SelectionMode) (bit : Nat) :
    (c.disable bit).toRow mode =
      { c.toRow mode with
        hypotheses := c.hypotheses.remove bit
        cutStatus := (c.toRow mode).cutStatus.map (·.set bit CutStatus.allPassed.packed) } := by
  cases mode with
  | production => rfl
  | debug =>
    show CandidateRow.mk _ _ (some _) = CandidateRow.mk _ _ (some _)
    unfold disable
    rw [List.map_set]
    rfl

theorem map_disable (g : HypothesisGroup) (bit : Nat) {verdict : DecayHypothesis → Verdict}
    (h : ∀ hyp : DecayHypothesis, verdict hyp.disabled = .start false) :
    (g.disable bit).hypotheses.map verdict =
      (g.hypotheses.map verdict).set bit (.start false) := by
  apply List.ext_getElem?
  intro n
  rw [List.getElem?_map, HypothesisGroup.getElem?_disable, List.getElem?_set, List.length_map,
    List.getElem?_map]
  by_cases hsame : bit = n
  · subst hsame
    by_cases hlt : bit < g.hypotheses.length
    · simp [hlt, h]
    · simp [hlt]
  · simp [hsame]

/-- A candidate without a hypothesis leads to its row less the hypothesis. -/
theorem rows_disable (c : Candidate) (bit : Nat) (mode : SelectionMode) :
    (if (c.disable bit).hypotheses.isEmpty then [] else [(c.disable bit).toRow mode]) =
      (if c.hypotheses.isEmpty then [] else [c.toRow mode]).filterMap (·.without bit) := by
  rw [toRow_disable]
  show (if (c.hypotheses.remove bit).isEmpty then [] else _) = _
  cases hempty : c.hypotheses.isEmpty with
  | true =>
    have hgone : (c.hypotheses.remove bit).isEmpty = true := by
      rw [HypothesisMask.isEmpty_iff] at hempty ⊢
      intro n
      rw [HypothesisMask.contains_remove, hempty n, Bool.false_and]
    rw [hgone]
    rfl
  | false =>
    have hwithout : (c.toRow mode).without bit =
        if (c.hypotheses.remove bit).isEmpty then none
        else
          some
            { c.toRow mode with
              hypotheses := c.hypotheses.remove bit
              cutStatus :=
                (c.toRow mode).cutStatus.map (·.set bit CutStatus.allPassed.packed) } := rfl
    rw [if_neg Bool.false_ne_true, List.filterMap_cons, hwithout]
    cases (c.hypotheses.remove bit).isEmpty <;> rfl

theorem after_disable {g : HypothesisGroup} (hg : g.WellFormed) (mode : SelectionMode)
    (margin : Float) (primary : Position) (vertex : FittedVertex) (prongs : List Track)
    (bit : Nat) :
    after mode margin (g.disable bit) primary vertex prongs =
      (after mode margin g primary vertex prongs).disable bit := by
  unfold after
  rw [map_disable g bit fun hyp => DecayHypothesis.verdictAfter_disabled mode _ _ hyp]
  refine disable_ofVerdicts ?_ prongs g.arity (some vertex) bit
  rw [List.length_map]
  exact hg.size_le

end Candidate

namespace Search

variable {s : Search} (hs : s.WellFormed)

theorem outcome_withHypotheses {others : HypothesisSet} {a : Arity}
    (h : others.group a = s.hypotheses.group a) (primary : Position) (prongs : List Track) :
    (s.withHypotheses others).outcome a primary prongs = s.outcome a primary prongs := by
  unfold outcome triesFit candidateBefore candidateAfter withHypotheses
  rw [h]
  rfl

include hs

theorem wellFormed_disable (arity : Arity) (bit : Nat) :
    (s.withHypotheses (s.hypotheses.disable arity bit)).WellFormed :=
  wellFormed_withHypotheses hs (HypothesisSet.wellFormed_disable hs.hypotheses arity bit)

/-- A combination leads to no row of another arity. -/
theorem rows_outcome_of_ne {a other : Arity} (h : a ≠ other) (primary : Position)
    (prongs : List Track) (mode : SelectionMode) :
    (s.outcome a primary prongs).rows mode other = [] := by
  unfold Evaluation.rows Evaluation.acceptedAs
  rw [arity_outcome, hs.hypotheses.arities, decide_eq_false h, Bool.and_false]
  rfl

theorem rows_outcome_of_vertex {arity : Arity} {primary : Position} {prongs : List Track}
    {vertex : FittedVertex} (h : s.fitter prongs = some vertex) (mode : SelectionMode) :
    (s.outcome arity primary prongs).rows mode arity =
      if (s.candidateAfter arity primary vertex prongs).hypotheses.isEmpty then []
      else [(s.candidateAfter arity primary vertex prongs).toRow mode] := by
  have haccepted := accepted_outcome_iff hs arity primary prongs
  unfold Evaluation.rows Evaluation.acceptedAs
  rw [arity_outcome, hs.hypotheses.arities, decide_eq_true rfl, Bool.and_true]
  cases hempty : (s.candidateAfter arity primary vertex prongs).hypotheses.isEmpty with
  | true =>
    have hrejected : (s.outcome arity primary prongs).accepted = false := by
      rw [← Bool.not_eq_true, haccepted]
      rintro ⟨other, hother, hleft⟩
      obtain rfl := Option.some.inj (h.symm.trans hother)
      rw [hempty] at hleft
      cases hleft
    rw [hrejected]
    rfl
  | false =>
    have hall := haccepted.mpr ⟨vertex, h, hempty⟩
    obtain ⟨_, htry, _⟩ := outcome_of_accepted hall
    rw [hall, outcome_of_vertex htry h]
    rfl

theorem rows_outcome_of_no_vertex {a arity : Arity} {primary : Position} {prongs : List Track}
    (h : s.fitter prongs = none) (mode : SelectionMode) :
    (s.outcome a primary prongs).rows mode arity = [] := by
  have hrejected : (s.outcome a primary prongs).accepted = false := by
    rw [← Bool.not_eq_true, accepted_outcome_iff hs]
    rintro ⟨vertex, hvertex, _⟩
    rw [h] at hvertex
    cases hvertex
  unfold Evaluation.rows Evaluation.acceptedAs
  rw [hrejected]
  rfl

/-- A combination keeps its row when a hypothesis is disabled, less the hypothesis. -/
theorem rows_outcome_disable (arity a : Arity) (bit : Nat) (primary : Position)
    (prongs : List Track) (mode : SelectionMode) :
    ((s.withHypotheses (s.hypotheses.disable arity bit)).outcome a primary prongs).rows mode
        arity =
      ((s.outcome a primary prongs).rows mode arity).filterMap (·.without bit) := by
  have hdisabled := wellFormed_disable hs arity bit
  by_cases hsame : a = arity
  · subst hsame
    cases hvertex : s.fitter prongs with
    | none =>
      rw [rows_outcome_of_no_vertex hs hvertex, rows_outcome_of_no_vertex hdisabled hvertex]
      rfl
    | some vertex =>
      have hcandidate : (s.withHypotheses (s.hypotheses.disable a bit)).candidateAfter a primary
          vertex prongs = (s.candidateAfter a primary vertex prongs).disable bit := by
        unfold candidateAfter withHypotheses
        rw [HypothesisSet.group_disable, if_pos rfl]
        exact Candidate.after_disable (hs.hypotheses.groups a) _ _ _ _ _ _
      rw [rows_outcome_of_vertex hs hvertex, rows_outcome_of_vertex hdisabled hvertex, hcandidate]
      exact Candidate.rows_disable _ bit mode
  · rw [rows_outcome_of_ne hs hsame, rows_outcome_of_ne hdisabled hsame]
    rfl

/-- Under a disabled hypothesis, nothing is accepted. -/
theorem acceptedUnder_disable (arity : Arity) (bit : Nat) (event : Event) :
    (s.withHypotheses (s.hypotheses.disable arity bit)).acceptedUnder event arity bit = [] := by
  have hdisabled := wellFormed_disable hs arity bit
  unfold acceptedUnder
  rw [List.filter_eq_nil_iff]
  intro prongs hprongs
  rw [acceptsAs_outcome_iff hdisabled _ _ (follows_of_mem_formed hprongs)]
  rintro ⟨harity, hyp, hget, henabled, _⟩
  unfold withHypotheses at hget
  rw [harity, HypothesisSet.group_disable, if_pos rfl, HypothesisGroup.getElem?_disable] at hget
  obtain ⟨original, _, rfl⟩ := Option.map_eq_some_iff.mp hget
  rw [if_pos rfl] at henabled
  cases henabled

/-- The rows of the other arity stay as they are. -/
theorem rows_report_disable_of_ne {arity other : Arity} (h : other ≠ arity) (bit : Nat)
    (event : Event) :
    ((s.withHypotheses (s.hypotheses.disable arity bit)).report event).output.rows other =
      (s.report event).output.rows other := by
  have hdisabled := wellFormed_disable hs arity bit
  rw [rows_report, rows_report]
  unfold evaluations
  rw [List.flatMap_map, List.flatMap_map]
  congr 1
  funext prongs
  by_cases hsame : Combination.arityOf prongs = other
  · have hgroup : (s.hypotheses.disable arity bit).group (Combination.arityOf prongs) =
        s.hypotheses.group (Combination.arityOf prongs) := by
      rw [HypothesisSet.group_disable, if_neg]
      rintro rfl
      exact h hsame.symm
    rw [outcome_withHypotheses hgroup]
    rfl
  · rw [rows_outcome_of_ne hs hsame, rows_outcome_of_ne hdisabled hsame]

/-- Disabling a hypothesis loses what the output says about it, and nothing else. -/
theorem loses_report (arity : Arity) (bit : Nat) (event : Event) :
    (s.report event).output.Loses arity bit
      ((s.withHypotheses (s.hypotheses.disable arity bit)).report event).output := by
  have hdisable := HypothesisSet.wellFormed_disable hs.hypotheses arity bit
  have hdisabled := wellFormed_disable hs arity bit
  have hnone := acceptedUnder_disable hs arity bit event
  constructor
  · rw [rows_report, rows_report, List.filterMap_flatMap]
    unfold evaluations
    rw [List.flatMap_map, List.flatMap_map]
    congr 1
    funext prongs
    exact rows_outcome_disable hs arity _ bit event.primaryVertex prongs s.mode
  · intro other hother
    exact rows_report_disable_of_ne hs hother bit event
  · rw [cascades_report, cascades_report]
    rfl
  · rw [tracks_report, tracks_report]
    rfl
  · rw [taggedTracks_report, taggedTracks_report]
    rfl
  · constructor
    · rw [accepted_report event hdisabled, hnone]
      rfl
    · intro m
      rw [matched_report event hdisabled, hnone]
      rfl
  · intro other n hother
    refine sameFor_report hs hdisable ?_ event
    rw [HypothesisSet.group_disable]
    split
    · rename_i harity
      have hbit : bit ≠ n := by
        rcases hother with hne | hne
        · exact absurd harity.symm hne
        · exact Ne.symm hne
      rw [HypothesisGroup.getElem?_disable]
      simp only [if_neg hbit, Option.map_id']
    · rfl

end Search

/-! ## Independence -/

theorem EventOutput.sameFor_refl (a : EventOutput) (arity : Arity) (bit : Nat) :
    a.SameFor arity bit a :=
  ⟨rfl, rfl, fun _ => rfl⟩

/-- There is nothing to lose in an event that was rejected before. -/
theorem EventOutput.loses_empty (accepted : Bool) (arity : Arity) (bit : Nat) :
    (empty accepted).Loses arity bit (empty accepted) where
  rows := by cases arity <;> rfl
  otherRows _ _ := rfl
  cascades := rfl
  tracks := rfl
  taggedTracks := rfl
  uncounted := by
    cases arity <;>
      exact ⟨HypothesisTally.accepted_zero bit, fun m => HypothesisTally.matched_zero bit m⟩
  others other n _ := sameFor_refl _ other n

/-- Hypotheses do not interfere with each other. With other hypotheses around it, whatever
their flags and tables are, a hypothesis finds the same tracks in the same order and counts the
same. Disabling one only removes it from the rows, drops the rows that have no other, and
leaves everything else as it is. -/
theorem hypotheses_do_not_interfere {selector : TrackSelector} (hselector : selector.WellFormed)
    {hypotheses : HypothesisSet} (hhypotheses : hypotheses.WellFormed) {fitter : Fitter}
    {settings : SearchSettings} {cascades : Option CascadeSettings} {s : Search}
    (hmake : Search.make selector hypotheses fitter settings cascades = .ok s) (event : Event) :
    ∃ p, s.process event = .ok p ∧
      (∀ others : HypothesisSet, others.WellFormed →
        ∃ t q, Search.make selector others fitter settings cascades = .ok t ∧
          t.process event = .ok q ∧
          ∀ arity bit,
            (others.group arity).hypotheses[bit]? = (hypotheses.group arity).hypotheses[bit]? →
            p.output.SameFor arity bit q.output) ∧
      ∀ arity bit, ∃ t q,
        Search.make selector (hypotheses.disable arity bit) fitter settings cascades = .ok t ∧
        t.process event = .ok q ∧ p.output.Loses arity bit q.output := by
  have hs := Search.make_wellFormed hselector hhypotheses hmake
  have hown : s.hypotheses = hypotheses := by rw [Search.make_eq_ok hmake]
  cases haccepted : event.accepted with
  | false =>
    have hempty : ∀ t : Search, t.process event = .ok (.empty false) := fun t =>
      Search.process_of_rejected t haccepted
    refine ⟨_, hempty s, ?_, ?_⟩
    · intro others _
      exact ⟨_, _, Search.make_withHypotheses hmake others, hempty _, fun arity bit _ =>
        EventOutput.sameFor_refl _ arity bit⟩
    · intro arity bit
      exact ⟨_, _, Search.make_withHypotheses hmake _, hempty _,
        EventOutput.loses_empty false arity bit⟩
  | true =>
    refine ⟨_, Search.process_eq hs haccepted, ?_, ?_⟩
    · intro others hothers
      refine ⟨_, _, Search.make_withHypotheses hmake others,
        Search.process_eq (Search.wellFormed_withHypotheses hs hothers) haccepted, ?_⟩
      intro arity bit hentry
      rw [← hown] at hentry
      exact Search.sameFor_report hs hothers hentry event
    · intro arity bit
      have hdisable := HypothesisSet.wellFormed_disable hhypotheses arity bit
      refine ⟨_, _, Search.make_withHypotheses hmake _,
        Search.process_eq (Search.wellFormed_withHypotheses hs hdisable) haccepted, ?_⟩
      have hloses := Search.loses_report hs arity bit event
      rwa [hown] at hloses

namespace Sample

/-- A second decay into a pair, in one wide bin with a mass window. -/
def jpsi (massMin massMax : Float) : DecayHypothesis :=
  ⟨.jpsiToEE, true,
    ⟨[0, 100], Arity.twoProng.requiredCuts, [[massMin, massMax, 0.1, 0.9]]⟩⟩

/-- Two decays that share each pair. -/
def pairHypotheses (massMin massMax : Float) : HypothesisSet :=
  { hypotheses with twoProng := ⟨.twoProng, [d0, jpsi massMin massMax]⟩ }

theorem first_pairHypotheses (massMin massMax : Float) :
    ((pairHypotheses massMin massMax).group .twoProng).hypotheses[0]? = some d0 := rfl

theorem pairHypotheses_wellFormed {massMin massMax : Float} (hmin : massMin.isFinite = true)
    (hmax : massMax.isFinite = true) : (pairHypotheses massMin massMax).WellFormed := by
  have hd0 : d0.WellFormed :=
    (hypotheses_wellFormed.groups .twoProng).members d0 (List.mem_singleton_self d0)
  have htable : (jpsi massMin massMax).cuts.WellFormed :=
    { two_edges := hd0.table.two_edges
      finite_edges := hd0.table.finite_edges
      increasing := hd0.table.increasing
      row_count := rfl
      row_length := by simp [jpsi, Arity.requiredCuts]
      finite_values := by
        simp only [jpsi, List.forall_mem_singleton, List.forall_mem_cons, hmin, hmax, true_and]
        decide
      distinct_labels := hd0.table.distinct_labels }
  have hboth : ∀ h ∈ [d0, jpsi massMin massMax], h.WellFormed := by
    rw [List.forall_mem_cons, List.forall_mem_singleton]
    exact ⟨hd0, htable, hd0.columns⟩
  constructor
  · intro arity
    cases arity
    · have hmake : HypothesisGroup.make .twoProng [d0, jpsi massMin massMax] =
          .ok (pairHypotheses massMin massMax).twoProng := rfl
      exact (HypothesisGroup.make_wellFormed hboth hmake).1
    · exact hypotheses_wellFormed.groups .threeProng
  · intro arity
    cases arity <;> rfl

end Sample

open Sample in
/-- Two decays share a pair. Whatever cuts the second one has, the first one finds the pair,
and when the first one is disabled, the row is left to the second one. -/
theorem a_pair_keeps_its_row_without_another_hypothesis :
    ∃ s t u p q r,
      Search.make selector (pairHypotheses 0.5 4) fitter ⟨0.125, true, true, true⟩ none = .ok s ∧
      Search.make selector (pairHypotheses 8 9) fitter ⟨0.125, true, true, true⟩ none = .ok t ∧
      Search.make selector ((pairHypotheses 0.5 4).disable .twoProng 0) fitter
        ⟨0.125, true, true, true⟩ none = .ok u ∧
      s.process event = .ok p ∧ t.process event = .ok q ∧ u.process event = .ok r ∧
      (p.output.rows .twoProng).map (·.hypotheses.toList) = [[0, 1]] ∧
      ((q.output.rows .twoProng).filter (·.hypotheses.contains 0)).map (·.tracks) =
        [[⟨1⟩, ⟨2⟩]] ∧
      (r.output.rows .twoProng).map (·.hypotheses.toList) = [[1]] := by
  have hboth : (pairHypotheses 0.5 4).WellFormed :=
    pairHypotheses_wellFormed (by decide) (by decide)
  have hother : (pairHypotheses 8 9).WellFormed :=
    pairHypotheses_wellFormed (by decide) (by decide)
  have hs := Search.make_withHypotheses (make_search true true) (pairHypotheses 0.5 4)
  obtain ⟨p, hp, hsame, hloses⟩ := hypotheses_do_not_interfere selector_wellFormed hboth hs event
  have hreport := Except.ok.inj (hp.symm.trans (Search.process_eq
    (Search.wellFormed_withHypotheses (search_wellFormed true true) hboth) rfl))
  have hpair : p.output.rows .twoProng = [⟨[⟨1⟩, ⟨2⟩], ⟨3⟩, some [0x3f, 0x3f]⟩] := by
    rw [hreport]
    decide +kernel
  obtain ⟨t, q, ht, hq, hrows⟩ := hsame _ hother
  have hfirst := (first_pairHypotheses 8 9).trans (first_pairHypotheses 0.5 4).symm
  obtain ⟨u, r, hu, hr, hlost⟩ := hloses .twoProng 0
  refine ⟨_, t, u, p, q, r, hs, ht, hu, hp, hq, hr, ?_, ?_, ?_⟩
  · rw [hpair]
    rfl
  · rw [← (hrows .twoProng 0 hfirst).tracks, hpair]
    rfl
  · rw [hlost.rows, hpair]
    rfl

end DecaySearch
