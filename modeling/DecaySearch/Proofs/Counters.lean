-- The counters of a search agree with its work: with the calls of the fitter and with the
-- rows that are put out. They do for each part of an event, agreement survives putting
-- parts together, and so it holds of events and of runs.
import DecaySearch.Proofs.HypothesisTallies
import DecaySearch.Proofs.TrackTallies

namespace DecaySearch

open Schedule

/-! ## Work -/

/-- What a search has done: its calls of the fitter and the rows that it has put out. -/
structure Work where
  calls : List FitCall
  rows : Arity → List CandidateRow
  cascades : List Cascade.Row

namespace Work

def append (a b : Work) : Work :=
  ⟨a.calls ++ b.calls, fun arity => a.rows arity ++ b.rows arity, a.cascades ++ b.cascades⟩

end Work

/-- The number of rows of an arity. -/
def EventCounts.candidates (c : EventCounts) : Arity → Nat
  | .twoProng => c.twoProng
  | .threeProng => c.threeProng

/-- The decays that look the same under both mass assignments. -/
def Decay.symmetric : List Decay := [.jpsiToEE, .jpsiToMuMu, .dPlusToPiKPi]

/-- Counters that agree with the work of a search with some fitter. -/
structure Counted (fitter : Fitter) (work : Work) (counts : EventCounts)
    (tally : Arity → HypothesisTally) : Prop where
  answers : ∀ call ∈ work.calls, call.vertex = fitter call.tracks
  fitsAttempted : counts.fitsAttempted = work.calls.length
  fitsFailed : counts.fitsFailed = work.calls.countP (·.vertex.isNone)
  candidates : ∀ arity, counts.candidates arity = (work.rows arity).length
  cascades : counts.cascades = work.cascades.length
  accepted : ∀ arity bit,
    (tally arity).accepted bit = (work.rows arity).countP (·.hypotheses.contains bit)
  matched : ∀ arity bit,
    (tally arity).accepted bit =
      (tally arity).matched bit .first + (tally arity).matched bit .second +
        (tally arity).matched bit .both
  unmatched : ∀ arity bit, (tally arity).matched bit .none = 0
  symmetric : ∀ decay ∈ Decay.symmetric,
    (tally decay.arity).matched decay.bit .first = 0 ∧
      (tally decay.arity).matched decay.bit .second = 0

namespace Counted

variable {fitter : Fitter}

/-- Counters of two pieces of work add up to counters of both. -/
theorem append {a b : Work} {c d : EventCounts} {t u : Arity → HypothesisTally}
    (ha : Counted fitter a c t) (hb : Counted fitter b d u) :
    Counted fitter (a.append b) (c.add d) fun arity => (t arity).add (u arity) where
  answers call hcall := by
    rcases List.mem_append.mp hcall with hleft | hright
    · exact ha.answers call hleft
    · exact hb.answers call hright
  fitsAttempted := by
    show c.fitsAttempted + d.fitsAttempted = (a.calls ++ b.calls).length
    rw [ha.fitsAttempted, hb.fitsAttempted, List.length_append]
  fitsFailed := by
    show c.fitsFailed + d.fitsFailed = (a.calls ++ b.calls).countP _
    rw [ha.fitsFailed, hb.fitsFailed, List.countP_append]
  candidates arity := by
    have hadd : (c.add d).candidates arity = c.candidates arity + d.candidates arity := by
      cases arity <;> rfl
    rw [hadd, ha.candidates, hb.candidates]
    exact List.length_append.symm
  cascades := by
    show c.cascades + d.cascades = (a.cascades ++ b.cascades).length
    rw [ha.cascades, hb.cascades, List.length_append]
  accepted arity bit := by
    rw [HypothesisTally.accepted_add, ha.accepted, hb.accepted]
    exact List.countP_append.symm
  matched arity bit := by
    have hleft := ha.matched arity bit
    have hright := hb.matched arity bit
    simp only [HypothesisTally.accepted_add, HypothesisTally.matched_add]
    omega
  unmatched arity bit := by
    rw [HypothesisTally.matched_add, ha.unmatched, hb.unmatched]
  symmetric decay hdecay := by
    obtain ⟨hfirst, hsecond⟩ := ha.symmetric decay hdecay
    obtain ⟨hfirst', hsecond'⟩ := hb.symmetric decay hdecay
    rw [HypothesisTally.matched_add, HypothesisTally.matched_add, hfirst, hsecond, hfirst',
      hsecond']
    exact ⟨rfl, rfl⟩

/-- The order of the calls does not matter. -/
theorem perm {work : Work} {counts : EventCounts} {tally : Arity → HypothesisTally}
    (h : Counted fitter work counts tally) {calls : List FitCall}
    (hcalls : work.calls.Perm calls) : Counted fitter { work with calls } counts tally :=
  { h with
    answers := fun call hcall => h.answers call (hcalls.mem_iff.mpr hcall)
    fitsAttempted := h.fitsAttempted.trans hcalls.length_eq
    fitsFailed := h.fitsFailed.trans (hcalls.countP_eq _) }

end Counted

/-! ## The parts of an event -/

namespace EventReport

/-- The work in an event or in a part of it. -/
def work (r : EventReport) : Work := ⟨r.calls, r.output.rows, r.output.cascades⟩

/-- The counters of a report agree with the work that it is about. -/
def IsCounted (fitter : Fitter) (r : EventReport) : Prop :=
  Counted fitter r.work r.output.counts r.output.tally

variable {fitter : Fitter}

/-- Nothing was done and nothing was counted. -/
theorem isCounted_empty (fitter : Fitter) (accepted : Bool) :
    (empty accepted).IsCounted fitter where
  answers call hcall := by cases hcall
  fitsAttempted := rfl
  fitsFailed := rfl
  candidates arity := by cases arity <;> rfl
  cascades := rfl
  accepted arity bit := by cases arity <;> exact HypothesisTally.accepted_zero bit
  matched arity bit := by
    cases arity <;>
      simp [empty, EventOutput.empty, EventOutput.tally]
  unmatched arity bit := by cases arity <;> exact HypothesisTally.matched_zero bit _
  symmetric decay _ := by
    cases decay.arity <;>
      exact ⟨HypothesisTally.matched_zero decay.bit _, HypothesisTally.matched_zero decay.bit _⟩

theorem isCounted_append {a b : EventReport} (ha : a.IsCounted fitter) (hb : b.IsCounted fitter) :
    (a.append b).IsCounted fitter := by
  have hsum := Counted.append ha hb
  -- The calls for cascades of both parts come after those for candidates.
  have hcalls : (a.work.append b.work).calls.Perm (a.append b).calls := by
    show ((a.candidateCalls ++ a.cascadeCalls) ++ (b.candidateCalls ++ b.cascadeCalls)).Perm
      ((a.candidateCalls ++ b.candidateCalls) ++ (a.cascadeCalls ++ b.cascadeCalls))
    rw [List.append_assoc, List.append_assoc, List.perm_append_left_iff, ← List.append_assoc,
      ← List.append_assoc, List.perm_append_right_iff]
    exact List.perm_append_comm
  have hrows : (a.append b).output.rows = fun arity => a.output.rows arity ++ b.output.rows arity :=
    funext fun arity => EventOutput.rows_append a.output b.output arity
  have htally : (a.append b).output.tally =
      fun arity => (a.output.tally arity).add (b.output.tally arity) :=
    funext fun arity => EventOutput.tally_append a.output b.output arity
  unfold IsCounted work
  rw [hrows, htally]
  exact hsum.perm hcalls

theorem isCounted_concat {parts : List EventReport} (h : ∀ part ∈ parts, part.IsCounted fitter) :
    (concat parts).IsCounted fitter := by
  induction parts with
  | nil => exact isCounted_empty fitter true
  | cons part rest ih =>
    exact isCounted_append (h part List.mem_cons_self)
      (ih fun other hother => h other (List.mem_cons_of_mem part hother))

end EventReport

/-! ## Cascades -/

namespace Cascade

/-- The counters of cascades agree with the rows and with the calls of the fitter. -/
theorem isCounted_ofCascades {fitter : Fitter} {found : Output}
    (hattempted : found.fitsAttempted = found.calls.length)
    (hfailed : found.fitsFailed = found.calls.countP (·.vertex.isNone))
    (hanswers : ∀ call ∈ found.calls, call.vertex = fitter call.tracks) :
    (EventReport.ofCascades found).IsCounted fitter :=
  { EventReport.isCounted_empty fitter true with
    answers := hanswers
    fitsAttempted := hattempted
    fitsFailed := hfailed
    candidates := fun arity => by cases arity <;> rfl
    cascades := rfl }

/-- A search for cascades counts its calls of the fitter and those that failed. -/
theorem fits_search (s : CascadeSettings) (fitter : Fitter) (event : Event)
    (bachelors : List Track) :
    let found := search s fitter event bachelors
    found.fitsAttempted = found.calls.length ∧
      found.fitsFailed = found.calls.countP (·.vertex.isNone) ∧
      ∀ call ∈ found.calls, call.vertex = fitter call.tracks := by
  unfold search
  induction pairs s event bachelors with
  | nil => exact ⟨rfl, rfl, fun call hcall => by cases hcall⟩
  | cons pair rest ih =>
    obtain ⟨hattempted, hfailed, hanswers⟩ := ih
    obtain ⟨bachelor, selected⟩ := pair
    rw [List.map_cons, List.foldr_cons]
    refine ⟨?_, ?_, ?_⟩
    · show 1 + _ = _
      rw [hattempted, Nat.add_comm]
      rfl
    · show (fitPair s fitter bachelor selected).fitsFailed + _ = _
      rw [hfailed]
      show _ = ([fitter.call [selected.line, bachelor]] ++ _).countP _
      rw [List.countP_append, List.countP_singleton]
      rfl
    · intro call hcall
      rcases List.mem_cons.mp hcall with rfl | hlater
      · rfl
      · exact hanswers call hlater

end Cascade

/-! ## Combinations -/

/-- Only a hypothesis whose mass assignments differ tells which of them matched. -/
theorem DecayHypothesis.matched_of_symmetric {h : DecayHypothesis}
    (hsymmetric : h.decay ∈ Decay.symmetric) (q : PreFitQuantities) :
    (h.preFitFinding q).matched ≠ .first ∧ (h.preFitFinding q).matched ≠ .second := by
  have hsame : h.decay.massAssignments.1 = h.decay.massAssignments.2 := by
    revert hsymmetric
    cases h.decay <;> decide
  have hboth : ∀ admitted : Bool, PermutationMatch.ofVerdicts admitted admitted ≠ .first ∧
      PermutationMatch.ofVerdicts admitted admitted ≠ .second := by decide
  unfold preFitFinding
  split
  · exact ⟨by decide, by decide⟩
  · show h.matchIn _ _ ≠ _ ∧ h.matchIn _ _ ≠ _
    unfold matchIn
    split
    · rw [hsame]
      exact hboth _
    · exact ⟨by decide, by decide⟩

namespace Search

/-- An evaluation counts its call of the fitter, and whether it failed. -/
theorem fits_outcome (s : Search) (arity : Arity) (primary : Position) (prongs : List Track) :
    let e := s.outcome arity primary prongs
    (EventOutput.fitCounts e.fit).fitsAttempted = e.calls.length ∧
      (EventOutput.fitCounts e.fit).fitsFailed = e.calls.countP (·.vertex.isNone) ∧
      ∀ call ∈ e.calls, call.vertex = s.fitter call.tracks := by
  simp only [fit_outcome, calls_outcome]
  cases s.triesFit arity prongs with
  | false => exact ⟨rfl, rfl, fun call hcall => by cases hcall⟩
  | true =>
    refine ⟨?_, ?_, ?_⟩
    · cases s.fitter prongs <;> rfl
    · rw [if_pos rfl, if_pos rfl, List.countP_singleton]
      show _ = if (s.fitter prongs).isNone = true then 1 else 0
      cases s.fitter prongs <;> rfl
    · intro call hcall
      rw [List.mem_singleton.mp hcall]
      rfl

variable {s : Search} (hs : s.WellFormed) (arity : Arity) (primary : Position)
  (prongs : List Track)

include hs

/-- The hypothesis at the bit of a decay is one for that decay. -/
theorem decay_of_bit {decay : Decay} {hyp : DecayHypothesis}
    (h : (s.hypotheses.group decay.arity).hypotheses[decay.bit]? = some hyp) :
    hyp.decay = decay := by
  have hg := hs.hypotheses.groups decay.arity
  obtain ⟨hlt, rfl⟩ := List.getElem?_eq_some_iff.mp h
  have hbit := hg.own_bit decay.bit hlt
  have harity := hg.same_arity _ (List.getElem_mem hlt)
  rw [hs.hypotheses.arities] at harity
  have hfound := Decay.catalogue_bit (s.hypotheses.group decay.arity).hypotheses[decay.bit].decay
  rw [hbit, harity, Decay.catalogue_bit decay] at hfound
  exact (Option.some.inj hfound).symm

/-- A hypothesis that an outcome is accepted under has a mass match. -/
theorem matchOf_ne_none {a : Arity} {bit : Nat}
    (h : (s.outcome arity primary prongs).acceptsAs a bit = true) :
    (s.outcome arity primary prongs).matchOf bit ≠ .none := by
  obtain ⟨_, hyp, _, _, _, hpasses, _, hmatch⟩ :=
    matchOf_of_acceptsAs hs arity primary prongs bit h
  rw [hmatch]
  exact PreFitFinding.matched_ne_none hpasses

/-- The mass match of a decay that looks the same both ways is never one-sided. -/
theorem matchOf_of_symmetric {decay : Decay} (hdecay : decay ∈ Decay.symmetric)
    (h : (s.outcome decay.arity primary prongs).acceptsAs decay.arity decay.bit = true) :
    (s.outcome decay.arity primary prongs).matchOf decay.bit ≠ .first ∧
      (s.outcome decay.arity primary prongs).matchOf decay.bit ≠ .second := by
  obtain ⟨_, hyp, _, hget, _, _, _, hmatch⟩ :=
    matchOf_of_acceptsAs hs decay.arity primary prongs decay.bit h
  rw [hmatch]
  exact DecayHypothesis.matched_of_symmetric (decay_of_bit hs hget ▸ hdecay) _

/-- The counters of a combination agree with its row and its call of the fitter. -/
theorem isCounted_outcome :
    ((s.outcome arity primary prongs).report s.mode).IsCounted s.fitter := by
  have hplace := place_of_outcome hs arity primary prongs
  have hcalls : ((s.outcome arity primary prongs).report s.mode).work.calls =
      (s.outcome arity primary prongs).calls := List.append_nil _
  obtain ⟨hattempted, hfailed, hanswers⟩ := fits_outcome s arity primary prongs
  have hrows : ((s.outcome arity primary prongs).report s.mode).work.rows =
      fun a => (s.outcome arity primary prongs).rows s.mode a := by
    funext a
    cases a <;> rfl
  have htally : ((s.outcome arity primary prongs).report s.mode).output.tally =
      fun a => (s.outcome arity primary prongs).tally a := by
    funext a
    cases a <;> rfl
  unfold EventReport.IsCounted
  constructor
  · rwa [hcalls]
  · rwa [hcalls]
  · rwa [hcalls]
  · intro a
    cases a <;> rfl
  · rfl
  · intro a bit
    rw [htally, hrows, Evaluation.accepted_tally hplace, Evaluation.countP_rows]
  · intro a bit
    rw [htally]
    exact Evaluation.accepted_tally_eq_sum hplace a bit (matchOf_ne_none hs arity primary prongs)
  · intro a bit
    rw [htally]
    exact Evaluation.matched_tally_of_ne hplace a bit (matchOf_ne_none hs arity primary prongs)
  · intro decay hdecay
    rw [htally]
    -- What is accepted in the arity of the decay was evaluated in it.
    have hsided : (s.outcome arity primary prongs).acceptsAs decay.arity decay.bit = true →
        (s.outcome arity primary prongs).matchOf decay.bit ≠ .first ∧
          (s.outcome arity primary prongs).matchOf decay.bit ≠ .second := by
      intro haccepts
      obtain rfl := arity_of_acceptsAs hs arity primary prongs haccepts
      exact matchOf_of_symmetric hs primary prongs hdecay haccepts
    exact ⟨Evaluation.matched_tally_of_ne hplace _ _ fun h => (hsided h).1,
      Evaluation.matched_tally_of_ne hplace _ _ fun h => (hsided h).2⟩

/-! ## One event -/

/-- The counters of an event agree with the work that was done in it. -/
theorem isCounted_report (event : Event) : (s.report event).IsCounted s.fitter := by
  unfold report
  apply EventReport.isCounted_concat
  intro part hpart
  unfold parts at hpart
  rw [List.mem_cons, List.mem_append, List.mem_singleton] at hpart
  rcases hpart with rfl | hcombination | rfl
  · exact
      { EventReport.isCounted_empty s.fitter true with
        candidates := fun arity => by cases arity <;> rfl }
  · unfold evaluations at hcombination
    rw [List.map_map] at hcombination
    obtain ⟨prongs, _, rfl⟩ := List.mem_map.mp hcombination
    exact isCounted_outcome hs _ event.primaryVertex prongs
  · unfold cascadesOf
    cases s.cascades with
    | none => exact EventReport.isCounted_empty s.fitter true
    | some settings =>
      obtain ⟨hattempted, hfailed, hanswers⟩ :=
        Cascade.fits_search settings s.fitter event (s.bachelorsOf event)
      exact Cascade.isCounted_ofCascades hattempted hfailed hanswers

/-- The report of an event, which is empty if the event was rejected before. -/
def reportOf (s : Search) (event : Event) : EventReport :=
  if event.accepted then s.report event else .empty false

omit hs in
theorem output_reportOf (s : Search) (event : Event) :
    (s.reportOf event).output = s.outputOf event := by
  unfold reportOf outputOf
  cases event.accepted <;> rfl

omit hs in
/-- The fitter is not called for an event that was rejected before. -/
theorem calls_of_rejected (s : Search) (event : Event)
    (h : (s.reportOf event).output.accepted = false) : (s.reportOf event).calls = [] := by
  rw [output_reportOf, accepted_outputOf] at h
  unfold reportOf
  rw [h]
  rfl

theorem process_reportOf (event : Event) : s.process event = .ok (s.reportOf event) := by
  unfold reportOf
  cases haccepted : event.accepted with
  | true => exact process_eq hs haccepted
  | false => exact process_of_rejected s haccepted

theorem isCounted_reportOf (event : Event) : (s.reportOf event).IsCounted s.fitter := by
  unfold reportOf
  cases event.accepted with
  | true => exact isCounted_report hs event
  | false => exact EventReport.isCounted_empty s.fitter false

end Search

/-! ## Runs -/

namespace EmittedRows

/-- Puts the rows of several writes together. -/
def concat (parts : List EmittedRows) : EmittedRows := parts.foldr append empty

/-- The rows of an arity without the indices of their events. -/
def candidates (r : EmittedRows) : Arity → List CandidateRow
  | .twoProng => r.twoProng.map (·.2)
  | .threeProng => r.threeProng.map (·.2)

theorem candidates_append (a b : EmittedRows) (arity : Arity) :
    (a.append b).candidates arity = a.candidates arity ++ b.candidates arity := by
  cases arity <;> exact List.map_append

theorem candidates_ofEvent (index : Nat) (output : EventOutput) (arity : Arity) :
    (ofEvent index output).candidates arity = output.rows arity := by
  cases arity <;> exact (List.map_map ..).trans (List.map_id' _)

end EmittedRows

/-- The counts of the hypotheses of an arity. -/
def RunTotals.tally (t : RunTotals) : Arity → HypothesisTally
  | .twoProng => t.twoProng
  | .threeProng => t.threeProng

/-- The work of a run that made some calls of the fitter and put out some rows. -/
def EmittedRows.work (r : EmittedRows) (calls : List FitCall) : Work :=
  ⟨calls, r.candidates, r.cascades.map (·.2)⟩

namespace RunAccumulator

/-- The counters of some events agree with the calls of the fitter that were made for them
and with the rows that are there. -/
def IsCounted (fitter : Fitter) (a : RunAccumulator) (calls : List FitCall) : Prop :=
  Counted fitter (a.rows.work calls) a.totals.counts a.totals.tally

variable {fitter : Fitter}

theorem isCounted_empty : empty.IsCounted fitter [] :=
  EventReport.isCounted_empty fitter true

/-- An event counts in a run as it does on its own. -/
theorem isCounted_ofEvent {report : EventReport} (h : report.IsCounted fitter)
    (hidle : report.output.accepted = false → report.calls = []) (index : Nat) :
    (ofEvent index report.output).IsCounted fitter report.calls := by
  cases haccepted : report.output.accepted with
  | true =>
    have hrows : (ofEvent index report.output).rows.work report.calls = report.work := by
      unfold ofEvent EmittedRows.work EventReport.work
      rw [haccepted, if_pos rfl]
      congr 1
      · exact funext (EmittedRows.candidates_ofEvent index report.output)
      · exact (List.map_map ..).trans (List.map_id' _)
    have htotals : (ofEvent index report.output).totals.counts = report.output.counts ∧
        (ofEvent index report.output).totals.tally = report.output.tally := by
      unfold ofEvent RunTotals.ofEvent
      rw [haccepted]
      exact ⟨rfl, funext fun arity => by cases arity <;> rfl⟩
    unfold IsCounted
    rw [hrows, htotals.1, htotals.2]
    exact h
  | false =>
    have hempty : (ofEvent index report.output).rows = empty.rows ∧
        (ofEvent index report.output).totals.counts = empty.totals.counts ∧
        (ofEvent index report.output).totals.tally = empty.totals.tally := by
      unfold ofEvent RunTotals.ofEvent
      rw [haccepted]
      exact ⟨rfl, rfl, funext fun arity => by cases arity <;> rfl⟩
    unfold IsCounted
    rw [hidle haccepted, hempty.1, hempty.2.1, hempty.2.2]
    exact isCounted_empty

theorem isCounted_append {a b : RunAccumulator} {calls later : List FitCall}
    (ha : a.IsCounted fitter calls) (hb : b.IsCounted fitter later) :
    (a.append b).IsCounted fitter (calls ++ later) := by
  have hsum := Counted.append ha hb
  have hwork : (a.append b).rows.work (calls ++ later) =
      (a.rows.work calls).append (b.rows.work later) := by
    unfold EmittedRows.work Work.append
    congr 1
    · exact funext (EmittedRows.candidates_append a.rows b.rows)
    · exact List.map_append
  have htally : (a.append b).totals.tally =
      fun arity => (a.totals.tally arity).add (b.totals.tally arity) := by
    funext arity
    cases arity <;> rfl
  unfold IsCounted
  rw [hwork, htally]
  exact hsum

/-- The counters of the events of a run agree with the work that was done in them. -/
theorem isCounted_gathered (reports : Nat → EventReport) {indices : List Nat}
    (h : ∀ i ∈ indices, (reports i).IsCounted fitter)
    (hidle : ∀ i ∈ indices, (reports i).output.accepted = false → (reports i).calls = []) :
    (gathered (fun i => (reports i).output) indices).IsCounted fitter
      (indices.flatMap fun i => (reports i).calls) := by
  induction indices with
  | nil => exact isCounted_empty
  | cons i rest ih =>
    have hfirst := isCounted_ofEvent (h i List.mem_cons_self) (hidle i List.mem_cons_self) i
    have hrest := ih (fun j hj => h j (List.mem_cons_of_mem i hj))
      fun j hj => hidle j (List.mem_cons_of_mem i hj)
    rw [gathered_cons, List.flatMap_cons]
    exact isCounted_append hfirst hrest

end RunAccumulator

/-- The rows of consecutive ranges together are the rows of all their events. -/
theorem concat_rowsIn (outputs : Nat → EventOutput) (ranges : List EventRange) :
    .concat (ranges.map (rowsIn outputs)) =
      (gathered outputs (ranges.flatMap EventRange.indices)).rows := by
  unfold EmittedRows.concat
  induction ranges with
  | nil => rfl
  | cons range rest ih =>
    rw [List.map_cons, List.foldr_cons, ih, List.flatMap_cons, gathered_append]
    rfl

namespace Search

variable {s : Search} (hs : s.WellFormed) (events : List Event)

include hs

/-- The counters of a run over events agree with the work that was done in all of them. -/
theorem isCounted_events :
    (gathered (s.outputAt events) (List.range events.length)).IsCounted s.fitter
      ((events.map s.reportOf).flatMap (·.calls)) := by
  let reportAt : Nat → EventReport := fun i => (events[i]?.map s.reportOf).getD (.empty false)
  have houtputs : s.outputAt events = fun i => (reportAt i).output := by
    funext i
    show (events[i]?.map s.outputOf).getD (.empty false) =
      ((events[i]?.map s.reportOf).getD (.empty false)).output
    cases events[i]? with
    | none => rfl
    | some event => exact (output_reportOf s event).symm
  have hcalls : (events.map s.reportOf).flatMap (·.calls) =
      (List.range events.length).flatMap fun i => (reportAt i).calls := by
    rw [← map_getElem?_range s.reportOf (.empty false) events, List.flatMap_map]
  rw [houtputs, hcalls]
  apply RunAccumulator.isCounted_gathered
  · intro i _
    show EventReport.IsCounted s.fitter ((events[i]?.map s.reportOf).getD (.empty false))
    cases events[i]? with
    | none => exact EventReport.isCounted_empty s.fitter false
    | some event => exact isCounted_reportOf hs event
  · intro i _
    show ((events[i]?.map s.reportOf).getD (.empty false)).output.accepted = false →
      ((events[i]?.map s.reportOf).getD (.empty false)).calls = []
    cases events[i]? with
    | none => exact fun _ => rfl
    | some event => exact calls_of_rejected s event

end Search

/-- Every counter agrees with what was done. In each event, and over all events of a run, the
fits that were attempted and those that failed are the calls of the fitter and those without a
vertex, the candidates and cascades are the rows, and a hypothesis is counted as accepted, under
exactly one mass match, once for each row that has it. A run whose counters fit into 64 bits
ends with these counts and has written these rows, on one thread and on many. -/
theorem every_counter_agrees_with_the_work {s : Search} (hs : s.WellFormed) :
    (∀ event, ∃ report, s.process event = .ok report ∧ report.IsCounted s.fitter) ∧
    ∀ events : List Event, ∃ reports, events.mapM s.process = .ok reports ∧
      let whole := gathered (s.outputAt events) (List.range events.length)
      whole.IsCounted s.fitter (reports.flatMap (·.calls)) ∧
      (0 < events.length → checkBatches events.length = .ok () →
        whole.totals.counts.fits = true →
        ∃ written, .concat written = whole.rows ∧
          ∀ source : EventSource, (∀ i event, events[i]? = some event →
            source.event i = .ok event) →
          ∀ (m : Type → Type) [Monad m] [LawfulMonad m] (write : Sink (ExceptT Fault m))
            (workers : Workers), workers.Fair →
            ∀ run ∈ [
                sequential events.length (fun range => raise (s.processRange source range)) write,
                threaded workers events.length
                  (fun range => raise (s.processRange source range)) write],
              run =
                (do
                  forM written write
                  pure ⟨whole.totals, .empty⟩)) := by
  constructor
  · intro event
    exact ⟨_, Search.process_reportOf hs event, Search.isCounted_reportOf hs event⟩
  · intro events
    have hreports : events.mapM s.process = .ok (events.map s.reportOf) :=
      mapM_eq_ok_map events fun event _ => Search.process_reportOf hs event
    refine ⟨_, hreports, Search.isCounted_events hs events, ?_⟩
    intro hevents hmade hfits
    refine ⟨(batchesOf events.length).map (rowsIn (s.outputAt events)), ?_, ?_⟩
    · rw [concat_rowsIn, indices_of_split (consecutive_batchesOf events.length)]
    · intro source hsource m _ _ write workers hfair
      refine run_of_fits _ ?_ write hmade hevents hfits hfair
      intro range hrange
      rw [Search.processRange_of_events hs hsource hrange]

/-! ## One pair -/

/-- No more tracks are tagged than there are. -/
theorem Search.taggedTracks_report_le (s : Search) (event : Event) :
    (s.report event).output.counts.taggedTracks ≤ event.tracks.length := by
  rw [taggedTracks_report]
  exact List.countP_le_length.trans (by simp [tagged])

/-- A run over one event counts what the event counts. -/
theorem Search.counts_of_one_event (s : Search) {event : Event} (h : event.accepted = true) :
    (gathered (s.outputAt [event]) [0]).totals.counts = (s.report event).output.counts := by
  have houtput : s.outputAt [event] 0 = (s.report event).output := if_pos h
  have haccepted : (s.report event).output.accepted = true := rfl
  rw [gathered_cons, houtput]
  unfold RunAccumulator.ofEvent RunTotals.ofEvent
  rw [if_pos haccepted, if_pos haccepted]
  exact EventCounts.add_zero _

open Sample in
/-- One pair is fitted once, and its only row is counted under one mass match. -/
theorem a_pair_is_counted_once :
    (search true true).WellFormed ∧
    (∃ report, (search true true).process event = .ok report ∧
      report.output.counts.fitsAttempted = 1 ∧ report.output.counts.twoProng = 1 ∧
      report.output.twoProngTally.accepted 0 = 1 ∧
      report.output.twoProngTally.matched 0 .none = 0) ∧
    ∃ (written : List EmittedRows) (totals : RunTotals),
      (EmittedRows.concat written).twoProng.length = 1 ∧ totals.counts.fitsAttempted = 1 ∧
      sequential 1 (fun range => raise ((search true true).processRange (.recorded #[event]) range))
          record =
        (do
          forM written record
          pure ⟨totals, .empty⟩) := by
  have hs := search_wellFormed true true
  obtain ⟨hevent, hrun⟩ := every_counter_agrees_with_the_work hs
  have hreport : (search true true).process event = .ok ((search true true).report event) :=
    Search.process_eq hs rfl
  have hcalls : ((search true true).report event).calls.length = 1 := by decide +kernel
  refine ⟨hs, ?_, ?_⟩
  · obtain ⟨report, hprocess, hcounted⟩ := hevent event
    obtain rfl := Except.ok.inj (hreport.symm.trans hprocess)
    refine ⟨_, hprocess, ?_, ?_, ?_, ?_⟩
    · exact hcounted.fitsAttempted.trans hcalls
    · exact (hcounted.candidates .twoProng).trans (by decide +kernel)
    · exact (hcounted.accepted .twoProng 0).trans (by decide +kernel)
    · exact hcounted.unmatched .twoProng 0
  · obtain ⟨reports, hreports, hcounted, hruns⟩ := hrun [event]
    have hone : reports = [(search true true).report event] := by
      rw [List.mapM_cons, hreport] at hreports
      exact (Except.ok.inj hreports).symm
    have hfits : (gathered ((search true true).outputAt [event])
        (List.range 1)).totals.counts.fits = true := by
      have htagged := Search.taggedTracks_report_le (search true true) event
      rw [show List.range 1 = [0] from rfl, Search.counts_of_one_event _ rfl]
      unfold EventCounts.fits EventCounts.toList
      simp only [List.all_cons, List.all_nil, Bool.and_true, Bool.and_eq_true, decide_eq_true_eq]
      refine ⟨Nat.lt_of_le_of_lt htagged (by decide), ?_⟩
      decide +kernel
    obtain ⟨written, hwritten, hequal⟩ := hruns (by decide) rfl hfits
    refine ⟨written, _, ?_, ?_, hequal (.recorded #[event]) (Search.event_recorded [event]) _
      record backwards backwards_fair _ List.mem_cons_self⟩
    · rw [hwritten]
      decide +kernel
    · rw [hcounted.fitsAttempted, hone]
      exact hcalls
end DecaySearch
