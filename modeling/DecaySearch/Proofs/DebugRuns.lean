-- Debug mode looks at more than production and finds the same. The two runs are
-- compared part by part, and what holds of the parts holds of the whole event.
import DecaySearch.Proofs.EventSearch

namespace DecaySearch

/-! ## Comparing outputs -/

/-- What a row says about a candidate, without the status of its hypotheses. -/
def CandidateRow.found (r : CandidateRow) : List TrackId × HypothesisMask :=
  (r.tracks, r.hypotheses)

/-- Two tallies of tracks, of which the second one rejects at least as often. -/
structure TrackTally.Extends (a b : TrackTally) : Prop where
  selected : a.selected = b.selected
  rejected : ∀ role stage, (a.rejected.get role).get stage ≤ (b.rejected.get role).get stage

/-- Two outputs that tell the same about the event, of which the second one may have
come from more fits and may record more rejections. -/
structure EventOutput.SamePhysics (a b : EventOutput) : Prop where
  rows : ∀ arity, (a.rows arity).map (·.found) = (b.rows arity).map (·.found)
  cascades : a.cascades = b.cascades
  tallies : ∀ arity, a.tally arity = b.tally arity
  taggedTracks : a.counts.taggedTracks = b.counts.taggedTracks
  tracks : a.tracks.Extends b.tracks
  fitsAttempted : a.counts.fitsAttempted ≤ b.counts.fitsAttempted
  fitsFailed : a.counts.fitsFailed ≤ b.counts.fitsFailed

/-- Every row of an output stands in another one, in the same order. -/
structure EventOutput.Among (a b : EventOutput) : Prop where
  rows : ∀ arity, ((a.rows arity).map (·.found)).Sublist ((b.rows arity).map (·.found))
  cascades : a.cascades.Sublist b.cascades

namespace TrackTally

theorem extends_refl (a : TrackTally) : a.Extends a := ⟨rfl, fun _ _ => Nat.le_refl _⟩

theorem extends_add {a b c d : TrackTally} (hab : a.Extends b) (hcd : c.Extends d) :
    (a.add c).Extends (b.add d) := by
  constructor
  · unfold add
    simp only [hab.selected, hcd.selected]
  · intro role stage
    rw [rejected_add, rejected_add]
    exact Nat.add_le_add (hab.rejected role stage) (hcd.rejected role stage)

/-- Tallies extend each other when they do track by track. -/
theorem extends_foldl_record {v w : Track → TrackVerdict}
    (h : ∀ t, (ofVerdict (v t)).Extends (ofVerdict (w t))) (ts : List Track) {a b : TrackTally}
    (hab : a.Extends b) : ((ts.map v).foldl record a).Extends ((ts.map w).foldl record b) := by
  induction ts generalizing a b with
  | nil => exact hab
  | cons t rest ih => exact ih (extends_add hab (h t))

theorem get_rejected_ofVerdict (v : TrackVerdict) (role : Role) (stage : TrackStage) :
    ((ofVerdict v).rejected.get role).get stage = ((v.get role).rejected.get stage).toNat := by
  cases role <;> cases stage <;> rfl

end TrackTally

namespace EventOutput

theorem samePhysics_refl (a : EventOutput) : a.SamePhysics a :=
  ⟨fun _ => rfl, rfl, fun _ => rfl, rfl, a.tracks.extends_refl, Nat.le_refl _, Nat.le_refl _⟩

theorem rows_append (a b : EventOutput) (arity : Arity) :
    (a.append b).rows arity = a.rows arity ++ b.rows arity := by
  cases arity <;> rfl

theorem tally_append (a b : EventOutput) (arity : Arity) :
    (a.append b).tally arity = (a.tally arity).add (b.tally arity) := by
  cases arity <;> rfl

theorem samePhysics_append {a b c d : EventOutput} (hab : a.SamePhysics b)
    (hcd : c.SamePhysics d) : (a.append c).SamePhysics (b.append d) where
  rows arity := by
    rw [rows_append, rows_append, List.map_append, List.map_append, hab.rows, hcd.rows]
  cascades := by
    show a.cascades ++ c.cascades = b.cascades ++ d.cascades
    rw [hab.cascades, hcd.cascades]
  tallies arity := by rw [tally_append, tally_append, hab.tallies, hcd.tallies]
  taggedTracks := by
    show a.counts.taggedTracks + c.counts.taggedTracks = _
    rw [hab.taggedTracks, hcd.taggedTracks]
    rfl
  tracks := TrackTally.extends_add hab.tracks hcd.tracks
  fitsAttempted := Nat.add_le_add hab.fitsAttempted hcd.fitsAttempted
  fitsFailed := Nat.add_le_add hab.fitsFailed hcd.fitsFailed

/-- Parts that tell the same add up to wholes that tell the same. -/
theorem samePhysics_concat {parts others : List EventReport}
    (h : List.Forall₂ (fun a b => a.output.SamePhysics b.output) parts others) :
    (EventReport.concat parts).output.SamePhysics (EventReport.concat others).output := by
  induction h with
  | nil => exact samePhysics_refl _
  | cons hfirst _ ih => exact samePhysics_append hfirst ih

end EventOutput

/-- Two evaluations that accept the same candidate under the same hypotheses, or none
at all. -/
structure Evaluation.Agrees (e f : Evaluation) : Prop where
  accepted : e.accepted = f.accepted
  prongs : e.candidate.prongs = f.candidate.prongs
  arity : e.candidate.arity = f.candidate.arity
  hypotheses : e.accepted = true → e.candidate.hypotheses = f.candidate.hypotheses
  permutations : e.accepted = true → e.candidate.permutations = f.candidate.permutations

namespace Evaluation

variable {e f : Evaluation} (h : e.Agrees f)

include h

theorem acceptedAs_of_agrees (arity : Arity) : e.acceptedAs arity = f.acceptedAs arity := by
  unfold acceptedAs
  rw [h.accepted, h.arity]

theorem found_rows_of_agrees (mode mode' : SelectionMode) (arity : Arity) :
    (e.rows mode arity).map (·.found) = (f.rows mode' arity).map (·.found) := by
  unfold rows
  rw [← acceptedAs_of_agrees h]
  split
  · rename_i haccepted
    have hacc := (Bool.and_eq_true _ _ ▸ haccepted).1
    unfold Candidate.toRow CandidateRow.found
    rw [List.map_singleton, List.map_singleton, h.prongs, h.hypotheses hacc]
  · rfl

theorem tally_of_agrees (arity : Arity) : e.tally arity = f.tally arity := by
  unfold tally
  rw [← acceptedAs_of_agrees h]
  split
  · rename_i haccepted
    have hacc := (Bool.and_eq_true _ _ ▸ haccepted).1
    rw [h.hypotheses hacc, h.permutations hacc]
  · rfl

theorem samePhysics_of_agrees (mode mode' : SelectionMode)
    (hattempted : (EventOutput.fitCounts e.fit).fitsAttempted ≤
      (EventOutput.fitCounts f.fit).fitsAttempted)
    (hfailed : (EventOutput.fitCounts e.fit).fitsFailed ≤
      (EventOutput.fitCounts f.fit).fitsFailed) :
    (e.report mode).output.SamePhysics (f.report mode').output := by
  constructor
  · intro arity
    cases arity
    · exact found_rows_of_agrees h mode mode' .twoProng
    · exact found_rows_of_agrees h mode mode' .threeProng
  · rfl
  · intro arity
    cases arity
    · exact tally_of_agrees h .twoProng
    · exact tally_of_agrees h .threeProng
  · rfl
  · exact TrackTally.extends_refl _
  · exact hattempted
  · exact hfailed

end Evaluation

/-! ## Cascades -/

namespace Cascade

theorem rows_fitPairs (settings : CascadeSettings) (fitter : Fitter)
    (pairs : List (Track × SelectedV0)) :
    ((pairs.map fun (bachelor, selected) =>
        fitPair settings fitter bachelor selected).foldr Output.append
          .empty).rows =
      pairs.flatMap fun (bachelor, selected) =>
        (fitPair settings fitter bachelor selected).rows := by
  induction pairs with
  | nil => rfl
  | cons pair rest ih =>
    rw [List.map_cons, List.foldr_cons, List.flatMap_cons, ← ih]
    rfl

/-- With more bachelors, every cascade is found again, in its place. -/
theorem rows_search_sublist (settings : CascadeSettings) (fitter : Fitter) (event : Event)
    {few many : List Track} (hfew : few.Sublist many) :
    (search settings fitter event few).rows.Sublist
      (search settings fitter event many).rows := by
  unfold search
  rw [rows_fitPairs, rows_fitPairs]
  unfold pairs
  exact ((hfew.filter _).flatMap _).flatMap _

end Cascade

/-! ## A search and its debug run -/

/-- A search in debug mode with the same parts as one in production. -/
structure Search.DebugOf (d s : Search) : Prop where
  production : s.mode = .production
  debug : d.mode = .debug
  selector : d.selector = s.selector
  hypotheses : d.hypotheses = s.hypotheses
  fitter : d.fitter = s.fitter
  ptTolerance : d.preselector.ptTolerance = s.preselector.ptTolerance
  cascades : d.cascades = s.cascades
  scope : s.scope.Within d.scope

theorem Search.debugOf_make {selector : TrackSelector} {hypotheses : HypothesisSet}
    {fitter : Fitter} {ptTolerance : Float} {threeProng exhaustive unused : Bool}
    {cascades : Option CascadeSettings} {s d : Search}
    (hs : Search.make selector hypotheses fitter ⟨ptTolerance, false, threeProng, unused⟩
      cascades = .ok s)
    (hd : Search.make selector hypotheses fitter ⟨ptTolerance, true, threeProng, exhaustive⟩
      cascades = .ok d) : d.DebugOf s := by
  rw [make_eq_ok hs, make_eq_ok hd]
  refine ⟨rfl, rfl, rfl, rfl, rfl, rfl, rfl, ⟨?_, rfl⟩⟩
  intro h
  cases h

namespace Search

variable {s d : Search} (h : d.DebugOf s)

include h

theorem DebugOf.wellFormed (hs : s.WellFormed) : d.WellFormed :=
  ⟨h.selector ▸ hs.selector, h.hypotheses ▸ hs.hypotheses⟩

/-! ## One track -/

/-- A track counts for the same roles, and debug mode records at least as many
rejections. -/
theorem extends_ofVerdict (t : Track) :
    (TrackTally.ofVerdict (s.selector.verdictOf s.mode t)).Extends
      (.ofVerdict (d.selector.verdictOf d.mode t)) := by
  rw [h.production, h.debug, h.selector]
  constructor
  · have hroles : (s.selector.verdictOf .production t).roles =
        (s.selector.verdictOf .debug t).roles := by
      rw [TrackSelector.roles_verdictOf, TrackSelector.roles_verdictOf]
    exact congrArg (PerRole.map Bool.toNat) hroles
  · intro role stage
    have himp := TrackSelector.rejected_debug_of_production s.selector t role stage
    rw [TrackTally.get_rejected_ofVerdict, TrackTally.get_rejected_ofVerdict]
    cases hr : ((s.selector.verdictOf .production t).get role).rejected.get stage
    · exact Nat.zero_le _
    · exact Nat.le_of_eq (by rw [himp hr])

theorem extends_tagOutput (event : Event) :
    (tagOutput (s.tagged event)).tracks.Extends (tagOutput (d.tagged event)).tracks := by
  unfold tagOutput tagged
  simp only [List.map_map]
  exact TrackTally.extends_foldl_record (extends_ofVerdict h) event.tracks
    (TrackTally.extends_refl .zero)

theorem samePhysics_tagOutput (event : Event) :
    (tagOutput (s.tagged event)).SamePhysics (tagOutput (d.tagged event)) := by
  have hcount : ((s.tagged event).map (·.2)).countP (fun v => !v.roles.isEmpty) =
      ((d.tagged event).map (·.2)).countP fun v => !v.roles.isEmpty := by
    unfold tagged
    rw [List.map_map, List.map_map, List.countP_map, List.countP_map]
    congr 1
    funext t
    simp only [Function.comp, TrackSelector.roles_verdictOf, h.selector]
  have hrest : ∀ tagged, (∀ arity, (tagOutput tagged).rows arity = []) ∧
      (tagOutput tagged).cascades = [] ∧ (∀ arity, (tagOutput tagged).tally arity = .zero) ∧
      (tagOutput tagged).counts.fitsAttempted = 0 ∧
      (tagOutput tagged).counts.fitsFailed = 0 := by
    intro tagged
    exact ⟨fun arity => by cases arity <;> rfl, rfl, fun arity => by cases arity <;> rfl, rfl,
      rfl⟩
  obtain ⟨hrows, hcascades, htallies, hattempted, hfailed⟩ := hrest (s.tagged event)
  obtain ⟨hrows', hcascades', htallies', hattempted', hfailed'⟩ := hrest (d.tagged event)
  constructor
  · intro arity
    rw [hrows, hrows']
  · rw [hcascades, hcascades']
  · intro arity
    rw [htallies, htallies']
  · exact hcount
  · exact extends_tagOutput h event
  · exact Nat.le_of_eq (by rw [hattempted, hattempted'])
  · exact Nat.le_of_eq (by rw [hfailed, hfailed'])

/-! ## One combination -/

theorem hypotheses_candidateAfter (arity : Arity) (primary : Position) (vertex : FittedVertex)
    (prongs : List Track) :
    (d.candidateAfter arity primary vertex prongs).hypotheses =
      (s.candidateAfter arity primary vertex prongs).hypotheses := by
  unfold candidateAfter Candidate.after Candidate.ofVerdicts
  dsimp only
  rw [h.hypotheses, h.ptTolerance, List.map_map, List.map_map]
  congr 1
  apply List.map_congr_left
  intro hyp _
  simp only [Function.comp, DecayHypothesis.alive_verdictAfter]

/-- Both runs find the same matches, also of hypotheses that are lost. -/
theorem permutations_candidateAfter (arity : Arity) (primary : Position) (vertex : FittedVertex)
    (prongs : List Track) :
    (d.candidateAfter arity primary vertex prongs).permutations =
      (s.candidateAfter arity primary vertex prongs).permutations := by
  unfold candidateAfter Candidate.after Candidate.ofVerdicts
  dsimp only
  rw [h.hypotheses, h.ptTolerance, List.map_map, List.map_map]
  apply List.map_congr_left
  intro hyp _
  simp only [Function.comp, DecayHypothesis.matched_verdictAfter,
    DecayHypothesis.matched_verdictBefore]

/-- Debug mode accepts the same combinations. It may fit where production does not, but
then no hypothesis is left. -/
theorem agrees_outcome (hs : s.WellFormed) (arity : Arity) (primary : Position)
    (prongs : List Track) :
    (s.outcome arity primary prongs).Agrees (d.outcome arity primary prongs) := by
  have hcandidates : (s.outcome arity primary prongs).accepted = true → ∃ vertex,
      (s.outcome arity primary prongs).candidate = s.candidateAfter arity primary vertex prongs ∧
      (d.outcome arity primary prongs).candidate =
        d.candidateAfter arity primary vertex prongs := by
    intro hacc
    obtain ⟨vertex, htry, hvertex⟩ := outcome_of_accepted hacc
    have hvertex' : d.fitter prongs = some vertex := by rw [h.fitter, hvertex]
    refine ⟨vertex, ?_, ?_⟩
    · rw [outcome_of_vertex htry hvertex]
    · rw [outcome_of_vertex (triesFit_of_debug h.debug arity prongs) hvertex']
  constructor
  · rw [Bool.eq_iff_iff, accepted_outcome_iff hs, accepted_outcome_iff (h.wellFormed hs),
      h.fitter]
    simp only [hypotheses_candidateAfter h]
  · rw [prongs_outcome, prongs_outcome]
  · rw [arity_outcome, arity_outcome, h.hypotheses]
  · intro hacc
    obtain ⟨vertex, hs, hd⟩ := hcandidates hacc
    rw [hs, hd, hypotheses_candidateAfter h]
  · intro hacc
    obtain ⟨vertex, hs, hd⟩ := hcandidates hacc
    rw [hs, hd, permutations_candidateAfter h]

/-- Debug mode fits whenever production does, and the fits fail alike. -/
theorem fitCounts_outcome (arity : Arity) (primary : Position) (prongs : List Track) :
    (EventOutput.fitCounts (s.outcome arity primary prongs).fit).fitsAttempted ≤
        (EventOutput.fitCounts (d.outcome arity primary prongs).fit).fitsAttempted ∧
      (EventOutput.fitCounts (s.outcome arity primary prongs).fit).fitsFailed ≤
        (EventOutput.fitCounts (d.outcome arity primary prongs).fit).fitsFailed := by
  rw [fit_outcome, fit_outcome, triesFit_of_debug h.debug, h.fitter]
  cases s.triesFit arity prongs <;> cases (s.fitter prongs).isNone <;> decide

/-! ## The whole event -/

theorem samePhysics_outcome (hs : s.WellFormed) (arity : Arity) (primary : Position)
    (prongs : List Track) :
    ((s.outcome arity primary prongs).report s.mode).output.SamePhysics
      ((d.outcome arity primary prongs).report d.mode).output := by
  obtain ⟨hattempted, hfailed⟩ := fitCounts_outcome h arity primary prongs
  exact Evaluation.samePhysics_of_agrees (agrees_outcome h hs arity primary prongs) _ _
    hattempted hfailed

/-- With the same scope, debug mode forms the same combinations and tells the same. -/
theorem samePhysics_report (hs : s.WellFormed) (hscope : d.scope = s.scope) (event : Event) :
    (s.report event).output.SamePhysics (d.report event).output := by
  have hformed : d.formed event = s.formed event := by
    unfold formed signed
    rw [hscope, h.selector]
  have hcascades : d.cascadesOf event = s.cascadesOf event := by
    unfold cascadesOf bachelorsOf
    rw [h.cascades, h.fitter, hscope, h.selector]
  unfold report parts evaluations
  rw [hformed, hcascades]
  apply EventOutput.samePhysics_concat
  refine List.Forall₂.cons (samePhysics_tagOutput h event) (List.rel_append ?_ ?_)
  · rw [List.map_map, List.map_map, List.forall₂_map_left_iff, List.forall₂_map_right_iff,
      List.forall₂_same]
    intro prongs _
    exact samePhysics_outcome h hs _ _ _
  · exact .cons (EventOutput.samePhysics_refl _) .nil

/-- In a wider scope, debug mode finds everything that production finds, in the same
order. -/
theorem among_report (hs : s.WellFormed) (event : Event) :
    (s.report event).output.Among (d.report event).output := by
  have hsigned : ∀ sign, d.signed event sign = s.signed event sign := by
    intro sign
    unfold signed
    rw [h.selector]
  have hformed : (s.formed event).Sublist (d.formed event) := by
    unfold formed
    rw [hsigned, hsigned]
    exact Combination.all_sublist h.scope _ _
  have hbachelors : (s.bachelorsOf event).Sublist (d.bachelorsOf event) := by
    unfold bachelorsOf
    rw [h.selector]
    exact List.monotone_filter_right _ fun _ ha => Combination.allows_of_within h.scope ha
  constructor
  · intro arity
    rw [rows_report, rows_report]
    unfold evaluations
    rw [List.flatMap_map, List.flatMap_map, List.map_flatMap, List.map_flatMap]
    -- One combination leads to the same rows in both runs, so only the lists differ.
    have hrows : ∀ prongs, ((s.outcome (Combination.arityOf prongs) event.primaryVertex
        prongs).rows s.mode arity).map (·.found) = ((d.outcome (Combination.arityOf prongs)
          event.primaryVertex prongs).rows d.mode arity).map (·.found) := fun prongs =>
      Evaluation.found_rows_of_agrees (agrees_outcome h hs _ _ prongs) s.mode d.mode arity
    simp only [hrows]
    exact hformed.flatMap _
  · rw [cascades_report, cascades_report]
    unfold cascadesOf
    rw [h.cascades, h.fitter]
    cases s.cascades with
    | none => exact List.Sublist.refl _
    | some settings => exact Cascade.rows_search_sublist settings s.fitter event hbachelors

end Search

/-- Debug mode never changes the physics. Without the exhaustive flag it finds the same
rows, cascades and counts as production, and only fits and rejects more. With the flag
it finds all that production finds, in the same order, and possibly more. -/
theorem debug_mode_never_changes_the_physics {selector : TrackSelector}
    {hypotheses : HypothesisSet} (hselector : selector.WellFormed)
    (hhypotheses : hypotheses.WellFormed) {fitter : Fitter} {ptTolerance : Float}
    {threeProng unused : Bool} {cascades : Option CascadeSettings}
    {production debug exhaustive : Search}
    (hproduction : Search.make selector hypotheses fitter
      ⟨ptTolerance, false, threeProng, unused⟩ cascades = .ok production)
    (hdebug : Search.make selector hypotheses fitter
      ⟨ptTolerance, true, threeProng, false⟩ cascades = .ok debug)
    (hexhaustive : Search.make selector hypotheses fitter
      ⟨ptTolerance, true, threeProng, true⟩ cascades = .ok exhaustive) (event : Event) :
    ∃ p d x, production.process event = .ok p ∧ debug.process event = .ok d ∧
      exhaustive.process event = .ok x ∧ p.output.SamePhysics d.output ∧
      p.output.Among x.output := by
  have hs := Search.make_wellFormed hselector hhypotheses hproduction
  have hd := Search.debugOf_make hproduction hdebug
  have hx := Search.debugOf_make hproduction hexhaustive
  have hscope : debug.scope = production.scope := by
    rw [Search.make_eq_ok hproduction, Search.make_eq_ok hdebug]
    rfl
  cases haccepted : event.accepted with
  | false =>
    have hempty : ∀ s : Search, s.process event = .ok (.empty false) := by
      intro s
      unfold Search.process
      rw [haccepted]
      rfl
    refine ⟨_, _, _, hempty _, hempty _, hempty _, EventOutput.samePhysics_refl _, ?_⟩
    exact ⟨fun _ => List.Sublist.refl _, List.Sublist.refl _⟩
  | true =>
    refine ⟨_, _, _, Search.process_eq hs haccepted, Search.process_eq (hd.wellFormed hs) haccepted,
      Search.process_eq (hx.wellFormed hs) haccepted, ?_, ?_⟩
    · exact Search.samePhysics_report hd hs hscope event
    · exact Search.among_report hx hs event

/-- Two tracks are searched alike in the three modes. -/
theorem a_pair_is_searched_alike_in_every_mode :
    ∃ p d x, (Sample.search false false).process Sample.event = .ok p ∧
      (Sample.search true false).process Sample.event = .ok d ∧
      (Sample.search true true).process Sample.event = .ok x ∧
      p.output.SamePhysics d.output ∧ p.output.Among x.output :=
  debug_mode_never_changes_the_physics Sample.selector_wellFormed Sample.hypotheses_wellFormed
    (Sample.make_search false false) (Sample.make_search true false)
    (Sample.make_search true true) Sample.event

end DecaySearch
