-- The search of one event, without its faults. Its output is put together from the
-- tags, the outcomes of the combinations in their order, and the cascades.
import DecaySearch.Proofs.Combinations
import DecaySearch.Proofs.TrackTags

namespace DecaySearch

/-! ## Counting an accepted candidate -/

namespace HypothesisTally

/-- Counts a hypothesis of a candidate, if it has a place. -/
def countBit (t : HypothesisTally) (bit : Nat) (found : List PermutationMatch) :
    HypothesisTally :=
  if h : bit < maxHypotheses then
    ⟨t.counts.set bit (t.counts[bit].record (found.getD bit .none))⟩
  else t

/-- The counts of one candidate. -/
def ofMatches (mask : HypothesisMask) (found : List PermutationMatch) : HypothesisTally :=
  mask.toList.foldl (fun t bit => t.countBit bit found) zero

/-- Every hypothesis of a mask is counted if all of them have a place and a match. -/
theorem record_zero {mask : HypothesisMask} {found : List PermutationMatch}
    (h : ∀ bit, mask.contains bit = true → bit < maxHypotheses ∧ bit < found.length) :
    zero.record mask found = .ok (ofMatches mask found) := by
  unfold record ofMatches
  apply foldlM_eq_ok_foldl
  intro t bit hbit
  obtain ⟨hplace, hfound⟩ := h bit ((HypothesisMask.mem_toList mask bit).mp hbit).2
  unfold recordBit countBit
  rw [dif_pos hplace, dif_pos hplace, List.getElem?_eq_getElem hfound]
  simp [hfound]

end HypothesisTally

/-! ## The report of a combination -/

namespace EventOutput

/-- The rows of an arity. -/
def rows (o : EventOutput) : Arity → List CandidateRow
  | .twoProng => o.twoProng
  | .threeProng => o.threeProng

/-- The counts of the hypotheses of an arity. -/
def tally (o : EventOutput) : Arity → HypothesisTally
  | .twoProng => o.twoProngTally
  | .threeProng => o.threeProngTally

end EventOutput

namespace Evaluation

/-- Truth that the candidate goes into the output of an arity. -/
def acceptedAs (arity : Arity) (e : Evaluation) : Bool :=
  e.accepted && e.candidate.arity = arity

/-- The rows of an arity that a combination leads to. -/
def rows (mode : SelectionMode) (arity : Arity) (e : Evaluation) : List CandidateRow :=
  if e.acceptedAs arity then [e.candidate.toRow mode] else []

/-- The counts of the hypotheses of an arity that a combination leads to. -/
def tally (arity : Arity) (e : Evaluation) : HypothesisTally :=
  if e.acceptedAs arity then
    .ofMatches e.candidate.hypotheses e.candidate.permutations
  else .zero

/-- The report of a combination. -/
def report (mode : SelectionMode) (e : Evaluation) : EventReport where
  output :=
    { accepted := true
      twoProng := e.rows mode .twoProng
      threeProng := e.rows mode .threeProng
      cascades := []
      counts :=
        { taggedTracks := 0
          twoProng := (e.rows mode .twoProng).length
          threeProng := (e.rows mode .threeProng).length
          cascades := 0
          fitsAttempted := (EventOutput.fitCounts e.fit).fitsAttempted
          fitsFailed := (EventOutput.fitCounts e.fit).fitsFailed }
      tracks := .zero
      twoProngTally := e.tally .twoProng
      threeProngTally := e.tally .threeProng }
  candidateCalls := e.calls
  cascadeCalls := []

/-- A combination is reported without a fault if every hypothesis in its mask has a
place in the tally and a mass match. -/
theorem report_eq {e : Evaluation}
    (h : ∀ bit, e.candidate.hypotheses.contains bit = true →
      bit < maxHypotheses ∧ bit < e.candidate.permutations.length) (mode : SelectionMode) :
    EventReport.ofEvaluation mode e = .ok (e.report mode) := by
  have hrecord : HypothesisTally.zero.record e.candidate.hypotheses e.candidate.permutations =
      .ok (.ofMatches e.candidate.hypotheses e.candidate.permutations) :=
    HypothesisTally.record_zero h
  unfold EventReport.ofEvaluation EventOutput.ofEvaluation
  cases haccepted : e.accepted with
  | false =>
    unfold report rows tally acceptedAs
    rw [haccepted]
    cases e.fit <;> rfl
  | true =>
    unfold EventOutput.ofCandidate
    simp only [if_true, hrecord, bind, Except.bind]
    unfold report rows tally acceptedAs
    rw [haccepted]
    cases e.candidate.arity <;> cases e.fit <;> rfl

end Evaluation

namespace Search

/-- What is said about a combination is said about the hypotheses of its group. -/
theorem sized_outcome {s : Search} (hs : s.WellFormed) (arity : Arity) (primary : Position)
    (prongs : List Track) :
    (s.outcome arity primary prongs).candidate.Sized (s.hypotheses.group arity) := by
  have hsized : ∀ (verdict : DecayHypothesis → Verdict) vertex,
      (Candidate.ofVerdicts prongs (s.hypotheses.group arity).arity
        ((s.hypotheses.group arity).hypotheses.map verdict) vertex).Sized
          (s.hypotheses.group arity) := by
    intro verdict vertex
    refine Candidate.sized_ofVerdicts ?_ rfl (List.length_map verdict)
    rw [List.length_map]
    exact (hs.hypotheses.groups arity).size_le
  unfold outcome
  split
  · split
    · exact hsized _ _
    · exact hsized _ _
  · exact hsized _ _

/-- Only hypotheses of the group are in the mask of an outcome. -/
theorem lt_of_contains_outcome {s : Search} (hs : s.WellFormed) (arity : Arity)
    (primary : Position) (prongs : List Track) (bit : Nat)
    (h : (s.outcome arity primary prongs).candidate.hypotheses.contains bit = true) :
    bit < maxHypotheses ∧
      bit < (s.outcome arity primary prongs).candidate.permutations.length := by
  have hsized := sized_outcome hs arity primary prongs
  have hbit := hsized.mask bit h
  rw [hsized.permutations]
  exact ⟨Nat.lt_of_lt_of_le hbit (hs.hypotheses.groups arity).length_le, hbit⟩

theorem searchCombination_eq {s : Search} (hs : s.WellFormed) {arity : Arity}
    {prongs : List Track} (h : arity.Follows (prongs.map (·.sign))) (primary : Position) :
    s.searchCombination primary prongs =
      .ok ((s.outcome arity primary prongs).report s.mode) := by
  unfold searchCombination
  rw [evaluate_eq hs h primary]
  exact Evaluation.report_eq (lt_of_contains_outcome hs arity primary prongs) s.mode

/-! ## The parts of the search -/

/-- The tracks of one sign with their roles, which no mode changes. -/
def signed (s : Search) (event : Event) (sign : Sign) : List TaggedTrack :=
  (event.tracks.filter fun t => t.sign = sign).map fun t => ⟨t, s.selector.rolesOf t⟩

/-- The combinations of an event, in the order of their evaluation. -/
def formed (s : Search) (event : Event) : List (List Track) :=
  Combination.all s.scope (s.signed event .positive) (s.signed event .negative)

/-- The tracks of an event that may be bachelors. -/
def bachelorsOf (s : Search) (event : Event) : List Track :=
  event.tracks.filter fun t => s.scope.allows .bachelorLeg ⟨t, s.selector.rolesOf t⟩

theorem combinations_tagged (s : Search) (event : Event) :
    s.combinations (s.tagged event) = s.formed event := by
  have hsign : ∀ sign, ofSign sign (s.tagged event) = s.signed event sign := by
    intro sign
    unfold ofSign tagged signed
    rw [List.filter_map, List.map_map]
    apply List.map_congr_left
    intro t _
    simp only [Function.comp, TrackSelector.roles_verdictOf]
  unfold combinations formed
  rw [hsign, hsign]

theorem bachelors_tagged (s : Search) (event : Event) :
    s.bachelors (s.tagged event) = s.bachelorsOf event := by
  unfold bachelors tagged bachelorsOf
  rw [List.filter_map, List.map_map]
  simp only [Function.comp_def, TrackSelector.roles_verdictOf, List.map_id']

theorem of_mem_signed {s : Search} {event : Event} {sign : Sign} {t : TaggedTrack}
    (h : t ∈ s.signed event sign) : t.track ∈ event.tracks ∧ t.track.sign = sign := by
  obtain ⟨u, hu, rfl⟩ := List.mem_map.mp h
  simpa using hu

/-- Every combination of an event follows the charges of its arity. -/
theorem follows_of_mem_formed {s : Search} {event : Event} {prongs : List Track}
    (h : prongs ∈ s.formed event) :
    (Combination.arityOf prongs).Follows (prongs.map (·.sign)) :=
  (Combination.formed_of_mem_all h).follows (fun _ ht => (of_mem_signed ht).2)
    (fun _ ht => (of_mem_signed ht).2)

/-- The evaluations of an event, in their order. -/
def evaluations (s : Search) (event : Event) : List Evaluation :=
  (s.formed event).map fun prongs =>
    s.outcome (Combination.arityOf prongs) event.primaryVertex prongs

/-- The cascades of an event. -/
def cascadesOf (s : Search) (event : Event) : Cascade.Output :=
  match s.cascades with
  | none => .empty
  | some settings => Cascade.search settings s.fitter event (s.bachelorsOf event)

/-- The parts of the output of an event, in their order. -/
def parts (s : Search) (event : Event) : List EventReport :=
  ⟨tagOutput (s.tagged event), [], []⟩ ::
    ((s.evaluations event).map (·.report s.mode) ++ [.ofCascades (s.cascadesOf event)])

/-- The report of an event that is searched. -/
def report (s : Search) (event : Event) : EventReport := EventReport.concat (s.parts event)

/-- A well-formed search succeeds on every event. -/
theorem process_eq {s : Search} (hs : s.WellFormed) {event : Event}
    (h : event.accepted = true) : s.process event = .ok (s.report event) := by
  have hfound : (s.combinations (s.tagged event)).mapM
      (s.searchCombination event.primaryVertex) =
      .ok ((s.evaluations event).map (·.report s.mode)) := by
    unfold evaluations
    rw [combinations_tagged, List.map_map]
    apply mapM_eq_ok_map
    intro prongs hprongs
    exact searchCombination_eq hs (follows_of_mem_formed hprongs) event.primaryVertex
  have hcascades : s.searchCascades event (s.tagged event) =
      .ofCascades (s.cascadesOf event) := by
    unfold searchCascades cascadesOf
    rw [bachelors_tagged]
    cases s.cascades <;> rfl
  unfold process
  rw [if_pos h, tag_eq hs]
  simp only [bind, Except.bind, hfound, hcascades]
  rfl

theorem process_of_rejected (s : Search) {event : Event} (h : event.accepted = false) :
    s.process event = .ok (.empty false) := by
  unfold process
  rw [h]
  rfl

end Search

/-! ## The fields of the report -/

/-- A field that parts add up to is the sum over the parts. -/
theorem EventReport.fold_concat {M : Type} (f : EventReport → M) (op : M → M → M)
    (h : ∀ a b, f (a.append b) = op (f a) (f b)) (parts : List EventReport) :
    f (concat parts) = (parts.map f).foldr op (f (empty true)) := by
  induction parts with
  | nil => rfl
  | cons part rest ih =>
    rw [List.map_cons, List.foldr_cons, ← ih, ← h]
    rfl

/-- A field that parts put behind each other is the concatenation over the parts. -/
theorem EventReport.flatMap_concat {α : Type} (f : EventReport → List α)
    (h : ∀ a b, f (a.append b) = f a ++ f b) (hempty : f (empty true) = [])
    (parts : List EventReport) : f (concat parts) = parts.flatMap f := by
  rw [fold_concat f _ h, hempty]
  induction parts with
  | nil => rfl
  | cons part rest ih => rw [List.map_cons, List.foldr_cons, ih, List.flatMap_cons]

namespace Search

variable (s : Search) (event : Event)

/-- The rows of an arity are those of the evaluations, in their order. -/
theorem rows_report (arity : Arity) :
    (s.report event).output.rows arity =
      (s.evaluations event).flatMap (·.rows s.mode arity) := by
  unfold report
  rw [EventReport.flatMap_concat (fun r => r.output.rows arity) (by intro a b; cases arity <;> rfl)
    (by cases arity <;> rfl)]
  unfold parts
  rw [List.flatMap_cons, List.flatMap_append, List.flatMap_map]
  cases arity <;> simp [tagOutput, EventOutput.rows, EventReport.ofCascades,
    EventOutput.ofCascades, EventOutput.empty, Evaluation.report]

/-- Each row comes from a combination that was accepted. -/
theorem mem_rows_report_iff (arity : Arity) (row : CandidateRow) :
    row ∈ (s.report event).output.rows arity ↔
      ∃ prongs ∈ s.formed event,
        (s.outcome (Combination.arityOf prongs) event.primaryVertex prongs).acceptedAs arity =
          true ∧
        row = (s.outcome (Combination.arityOf prongs) event.primaryVertex prongs).candidate.toRow
          s.mode := by
  rw [rows_report]
  unfold evaluations Evaluation.rows
  rw [List.flatMap_map, List.mem_flatMap]
  constructor
  · rintro ⟨prongs, hprongs, hrow⟩
    split at hrow
    · rename_i haccepted
      exact ⟨prongs, hprongs, haccepted, List.mem_singleton.mp hrow⟩
    · cases hrow
  · rintro ⟨prongs, hprongs, haccepted, rfl⟩
    refine ⟨prongs, hprongs, ?_⟩
    rw [if_pos haccepted]
    exact List.mem_singleton_self _

theorem candidateCalls_report :
    (s.report event).candidateCalls = (s.evaluations event).flatMap (·.calls) := by
  unfold report
  rw [EventReport.flatMap_concat (·.candidateCalls) (fun _ _ => rfl) rfl]
  unfold parts
  rw [List.flatMap_cons, List.flatMap_append, List.flatMap_map]
  simp [EventReport.ofCascades, Evaluation.report]

theorem cascades_report :
    (s.report event).output.cascades = (s.cascadesOf event).rows := by
  unfold report
  rw [EventReport.flatMap_concat (·.output.cascades) (fun _ _ => rfl) rfl]
  unfold parts
  rw [List.flatMap_cons, List.flatMap_append, List.flatMap_map]
  simp [tagOutput, EventReport.ofCascades, EventOutput.ofCascades, EventOutput.empty,
    Evaluation.report]

theorem cascadeCalls_report :
    (s.report event).cascadeCalls = (s.cascadesOf event).calls := by
  unfold report
  rw [EventReport.flatMap_concat (·.cascadeCalls) (fun _ _ => rfl) rfl]
  unfold parts
  rw [List.flatMap_cons, List.flatMap_append, List.flatMap_map]
  simp [EventReport.ofCascades, Evaluation.report]

/-- A field that neither combinations nor cascades add to is the one of the tags. -/
theorem tags_report {M : Type} (f : EventReport → M) (op : M → M → M)
    (happend : ∀ a b, f (a.append b) = op (f a) (f b))
    (hidentity : ∀ a, op a (f (.empty true)) = a)
    (hcombination : ∀ e : Evaluation, f (e.report s.mode) = f (.empty true))
    (hcascades : f (.ofCascades (s.cascadesOf event)) = f (.empty true)) :
    f (s.report event) = f ⟨tagOutput (s.tagged event), [], []⟩ := by
  have hrest : ∀ parts : List EventReport, (∀ part ∈ parts, f part = f (.empty true)) →
      (parts.map f).foldr op (f (.empty true)) = f (.empty true) := by
    intro parts
    induction parts with
    | nil => intro _; rfl
    | cons part rest ih =>
      intro h
      rw [List.map_cons, List.foldr_cons, h part List.mem_cons_self,
        ih fun p hp => h p (List.mem_cons_of_mem _ hp), hidentity]
  unfold report parts
  rw [EventReport.fold_concat f op happend, List.map_cons, List.foldr_cons, hrest, hidentity]
  intro part hpart
  rcases List.mem_append.mp hpart with hfound | hlast
  · obtain ⟨e, _, rfl⟩ := List.mem_map.mp hfound
    exact hcombination e
  · rw [List.mem_singleton.mp hlast, hcascades]

end Search

end DecaySearch
