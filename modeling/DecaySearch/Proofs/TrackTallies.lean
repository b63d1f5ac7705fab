-- What the tallies of tracks add up to. Production stops at the first stage that
-- rejects a track for a role, except that the quality stage is counted for roles that
-- were lost before.
import DecaySearch.Proofs.DebugRuns
import DecaySearch.Proofs.Batching

namespace DecaySearch

/-! ## Roles that are counted twice -/

/-- The first stage that rejects a track for a role, in the order of the stages. -/
def RoleVerdict.firstRejection? (v : RoleVerdict) : Option TrackStage :=
  TrackStage.all.find? v.rejected.get

/-- Truth that the momentum of a track is rejected for a role. -/
def RoleVerdict.failsKinematics (v : RoleVerdict) : Bool := v.rejected.pt || v.rejected.eta

/-- Truth that production counts a role under two stages, going by the verdict of debug
mode: the momentum fails for this role but not for every role, and then quality fails. -/
def TrackVerdict.countedTwice (debug : TrackVerdict) (role : Role) : Bool :=
  (debug.get role).failsKinematics && (debug.get role).rejected.quality &&
    Role.all.any fun other => !(debug.get other).failsKinematics

/-- The stages that a role is counted under, and one more if it is granted. -/
def RoleVerdict.countings (v : RoleVerdict) : Nat :=
  v.granted.toNat + (TrackStage.all.map fun stage => (v.rejected.get stage).toNat).sum

/-- A role that is lost on its momentum is not rejected by quality first. -/
theorem firstRejection?_ne_quality {v : RoleVerdict} (h : v.failsKinematics = true) :
    v.firstRejection? ≠ some .quality := by
  rcases v with ⟨granted, ⟨pt, eta, quality, dca⟩⟩
  revert h
  cases pt <;> cases eta <;> cases quality <;> cases dca <;> decide +revert

namespace TrackSelector

/-! ## One role -/

/-- Production records the first stage that rejects the track, and quality once more if it
fails after the role was lost and another one was left. -/
theorem rejected_judgeRole_production (left quality : Bool) (c : RoleChecks)
    (hleft : (c.pt && c.eta) = true → left = true) (stage : TrackStage) :
    (judgeRole .production left quality c).rejected.get stage = true ↔
      TrackStage.all.find? (fun stage => !c.passes quality stage) = some stage ∨
      stage = .quality ∧ (!(c.pt && c.eta) && !quality && left) = true := by
  rcases c with ⟨pt, eta, dca⟩
  revert hleft
  cases stage <;> cases left <;> cases quality <;> cases pt <;> cases eta <;> cases dca <;> decide

theorem countings_judgeRole_production (left quality : Bool) (c : RoleChecks)
    (hleft : (c.pt && c.eta) = true → left = true) :
    (judgeRole .production left quality c).countings =
      1 + (!(c.pt && c.eta) && !quality && left).toNat := by
  rcases c with ⟨pt, eta, dca⟩
  revert hleft
  cases left <;> cases quality <;> cases pt <;> cases eta <;> cases dca <;> decide

/-! ## One track -/

section

variable (quality : Bool) (checks : PerRole RoleChecks)

theorem anyLeft_production :
    anyLeft .production checks =
      Role.all.any fun role => (checks.get role).pt && (checks.get role).eta := by
  unfold anyLeft TrackVerdict.roles RoleMask.isEmpty PerRole.map
  simp only [granted_judgeKinematics, Bool.not_not]
  simp [Role.all, PerRole.get, Bool.or_assoc]

/-- Debug mode flags exactly the stages that reject the track. -/
theorem rejected_judge_debug (role : Role) (stage : TrackStage) :
    ((judge .debug quality checks).get role).rejected.get stage =
      !(checks.get role).passes quality stage := by
  rw [get_judge, rejected_judgeRole_debug]

theorem firstRejection?_judge_debug (role : Role) :
    ((judge .debug quality checks).get role).firstRejection? =
      TrackStage.all.find? fun stage => !(checks.get role).passes quality stage := by
  unfold RoleVerdict.firstRejection?
  congr 1
  funext stage
  exact rejected_judge_debug quality checks role stage

theorem failsKinematics_judge_debug (role : Role) :
    ((judge .debug quality checks).get role).failsKinematics =
      !((checks.get role).pt && (checks.get role).eta) := by
  have hpt := rejected_judge_debug quality checks role .pt
  have heta := rejected_judge_debug quality checks role .eta
  unfold RoleVerdict.failsKinematics
  rw [Bool.not_and]
  exact congrArg₂ _ hpt heta

theorem countedTwice_judge_debug (role : Role) :
    (judge .debug quality checks).countedTwice role =
      (!((checks.get role).pt && (checks.get role).eta) && !quality &&
        anyLeft .production checks) := by
  have hquality := rejected_judge_debug quality checks role .quality
  unfold TrackVerdict.countedTwice
  simp only [failsKinematics_judge_debug, anyLeft_production, Bool.not_not]
  rw [show ((judge .debug quality checks).get role).rejected.quality = !quality from hquality]

/-- What production flags, in terms of what debug mode flags. -/
theorem rejected_judge_production_iff (role : Role) (stage : TrackStage) :
    ((judge .production quality checks).get role).rejected.get stage = true ↔
      ((judge .debug quality checks).get role).firstRejection? = some stage ∨
      stage = .quality ∧ (judge .debug quality checks).countedTwice role = true := by
  rw [get_judge, rejected_judgeRole_production _ _ _ (anyLeft_of_kinematics _ _ _),
    firstRejection?_judge_debug, countedTwice_judge_debug]

/-- Production stops at the first stage unless the role is counted twice. -/
theorem rejected_once_iff (role : Role) :
    (∀ stage, ((judge .production quality checks).get role).rejected.get stage = true ↔
      ((judge .debug quality checks).get role).firstRejection? = some stage) ↔
    (judge .debug quality checks).countedTwice role = false := by
  simp only [rejected_judge_production_iff]
  constructor
  · intro honce
    rw [← Bool.not_eq_true]
    intro htwice
    have hfirst := (honce .quality).mp (.inr ⟨rfl, htwice⟩)
    unfold TrackVerdict.countedTwice at htwice
    rw [Bool.and_eq_true, Bool.and_eq_true] at htwice
    exact firstRejection?_ne_quality htwice.1.1 hfirst
  · intro honce stage
    simp [honce]

theorem countings_judge_production (role : Role) :
    ((judge .production quality checks).get role).countings =
      1 + ((judge .debug quality checks).countedTwice role).toNat := by
  rw [get_judge, countings_judgeRole_production _ _ _ (anyLeft_of_kinematics _ _ _),
    countedTwice_judge_debug]

theorem granted_judge (mode : SelectionMode) (role : Role) :
    ((judge mode quality checks).get role).granted = (checks.get role).passesAll quality := by
  rw [get_judge, granted_judgeRole _ _ _ _ (anyLeft_of_kinematics _ _ _)]

/-- No stage is flagged for a role that is granted. -/
theorem not_rejected_of_granted {mode : SelectionMode} {role : Role}
    (h : ((judge mode quality checks).get role).granted = true) (stage : TrackStage) :
    ((judge mode quality checks).get role).rejected.get stage = false := by
  rw [granted_judge] at h
  rw [get_judge, ← Bool.not_eq_true]
  intro hrejected
  have hfails := not_passes_of_rejected_judgeRole _ _ _ _ _ hrejected
  have hpasses : (checks.get role).passes quality stage = true :=
    List.all_eq_true.mp h stage (by cases stage <;> decide)
  rw [hfails] at hpasses
  cases hpasses

end

end TrackSelector

/-! ## Sums of tallies -/

namespace TrackTally

/-- What is counted for a role: the tracks that were selected, and the rejections. -/
def countings (t : TrackTally) (role : Role) : Nat :=
  t.selected.get role + (TrackStage.all.map fun stage => (t.rejected.get role).get stage).sum

theorem countings_add (a b : TrackTally) (role : Role) :
    (a.add b).countings role = a.countings role + b.countings role := by
  unfold countings
  simp only [selected_add, rejected_add, List.sum_map_add]
  exact Nat.add_add_add_comm _ _ _ _

theorem countings_zero (role : Role) : zero.countings role = 0 := by
  cases role <;> rfl

theorem countings_ofVerdict (v : TrackVerdict) (role : Role) :
    (ofVerdict v).countings role = (v.get role).countings := by
  unfold countings RoleVerdict.countings
  simp only [get_rejected_ofVerdict]
  cases role <;> rfl

theorem countings_foldl_record (role : Role) (verdicts : List TrackVerdict) (t : TrackTally) :
    (verdicts.foldl record t).countings role =
      t.countings role + (verdicts.map fun v => (v.get role).countings).sum := by
  induction verdicts generalizing t with
  | nil => rfl
  | cons v rest ih =>
    rw [List.foldl_cons, ih, record, countings_add, countings_ofVerdict, List.map_cons,
      List.sum_cons, Nat.add_assoc]

theorem countings_foldr_add (role : Role) (tallies : List TrackTally) :
    (tallies.foldr add zero).countings role = (tallies.map (·.countings role)).sum := by
  induction tallies with
  | nil => exact countings_zero role
  | cons t rest ih => rw [List.foldr_cons, countings_add, ih, List.map_cons, List.sum_cons]

end TrackTally

/-! ## One event -/

namespace Search

/-- Only the selection of tracks counts tracks. -/
theorem tracks_report (s : Search) (event : Event) :
    (s.report event).output.tracks =
      ((s.tagged event).map (·.2)).foldl TrackTally.record .zero :=
  tags_report s event (·.output.tracks) TrackTally.add (fun _ _ => rfl) TrackTally.add_zero
    (fun _ => rfl) rfl

theorem taggedTracks_report (s : Search) (event : Event) :
    (s.report event).output.counts.taggedTracks =
      ((s.tagged event).map (·.2)).countP fun v => !v.roles.isEmpty :=
  tags_report s event (·.output.counts.taggedTracks) (· + ·) (fun _ _ => rfl) Nat.add_zero
    (fun _ => rfl) rfl

/-- In production, a track counts once for a role, and once more if it is counted
twice. -/
theorem countings_report {s : Search} (hmode : s.mode = .production) (event : Event)
    (role : Role) :
    (s.report event).output.tracks.countings role =
      event.tracks.length +
        event.tracks.countP fun t => (s.selector.verdictOf .debug t).countedTwice role := by
  rw [tracks_report, TrackTally.countings_foldl_record, TrackTally.countings_zero, Nat.zero_add]
  unfold tagged
  rw [hmode]
  induction event.tracks with
  | nil => rfl
  | cons t rest ih =>
    simp only [List.map_cons, List.sum_cons, List.countP_cons, List.length_cons] at ih ⊢
    rw [ih]
    unfold TrackSelector.verdictOf
    rw [TrackSelector.countings_judge_production]
    cases TrackVerdict.countedTwice _ role <;> simp <;> omega

/-! ## All events of a run -/

/-- The output of an event, which is empty if the event was rejected before. -/
def outputOf (s : Search) (event : Event) : EventOutput :=
  if event.accepted then (s.report event).output else .empty false

theorem accepted_outputOf (s : Search) (event : Event) :
    (s.outputOf event).accepted = event.accepted := by
  unfold outputOf
  cases event.accepted <;> rfl

theorem process_outputOf {s : Search} (hs : s.WellFormed) (event : Event) :
    ∃ report, s.process event = .ok report ∧ report.output = s.outputOf event := by
  unfold outputOf
  cases haccepted : event.accepted with
  | true => exact ⟨_, process_eq hs haccepted, rfl⟩
  | false => exact ⟨_, process_of_rejected s haccepted, rfl⟩

/-- The output of the event of an index, which is empty after the last event. -/
def outputAt (s : Search) (events : List Event) (i : Nat) : EventOutput :=
  (events[i]?.map s.outputOf).getD (.empty false)

/-- A search of a range of a source integrates the outputs of its events. -/
theorem processRange_of_events {s : Search} (hs : s.WellFormed) {source : EventSource}
    {events : List Event} (hsource : ∀ i event, events[i]? = some event →
      source.event i = .ok event)
    {range : EventRange} (hrange : range.stop ≤ events.length) :
    s.processRange source range = integrateRange (s.outputAt events) range := by
  apply processRange_eq
  intro i hi
  rw [EventRange.indices_eq, List.mem_range'_1] at hi
  have hlt : i < events.length := by omega
  obtain ⟨report, hreport, houtput⟩ := process_outputOf hs events[i]
  refine ⟨events[i], report, hsource i _ (List.getElem?_eq_getElem hlt), hreport, ?_⟩
  unfold outputAt
  simp [hlt, houtput]

theorem event_recorded (events : List Event) (i : Nat) (event : Event)
    (h : events[i]? = some event) :
    (EventSource.recorded events.toArray).event i = .ok event := by
  unfold EventSource.event
  simp [h]

theorem processRange_recorded {s : Search} (hs : s.WellFormed) (events : List Event)
    {range : EventRange} (hrange : range.stop ≤ events.length) :
    s.processRange (.recorded events.toArray) range =
      integrateRange (s.outputAt events) range :=
  processRange_of_events hs (event_recorded events) hrange

/-- The tracks of the events that are searched. -/
def searchedTracks (events : List Event) : List Track :=
  (events.filter (·.accepted)).flatMap (·.tracks)

/-- Looking up one index after the other goes through a list. -/
theorem map_getElem?_range {α β : Type} (f : α → β) (d : β) (xs : List α) :
    (List.range xs.length).map (fun i => (xs[i]?.map f).getD d) = xs.map f := by
  apply List.ext_getElem
  · simp
  · intro i hi _
    have hlt : i < xs.length := by simpa using hi
    simp [hlt]

/-- The outputs that a run over some events accumulates are those of the events. -/
theorem map_outputAt (s : Search) (events : List Event) :
    (acceptedAmong (s.outputAt events) (List.range events.length)).map (s.outputAt events) =
      (events.filter (·.accepted)).map s.outputOf := by
  have hall : (List.range events.length).map (s.outputAt events) = events.map s.outputOf :=
    map_getElem?_range s.outputOf (.empty false) events
  have haccepted : (fun output : EventOutput => output.accepted) ∘ s.outputOf =
      fun event => event.accepted := funext fun event => accepted_outputOf s event
  calc (acceptedAmong (s.outputAt events) (List.range events.length)).map (s.outputAt events)
      = ((List.range events.length).map (s.outputAt events)).filter (·.accepted) :=
        (List.filter_map ..).symm
    _ = (events.map s.outputOf).filter (·.accepted) := by rw [hall]
    _ = (events.filter (·.accepted)).map s.outputOf := by rw [List.filter_map, haccepted]

theorem sum_countings_outputOf {s : Search} (hmode : s.mode = .production)
    (events : List Event) (role : Role) :
    ((events.filter (·.accepted)).map fun e => (s.outputOf e).tracks.countings role).sum =
      (searchedTracks events).length +
        (searchedTracks events).countP fun t =>
          (s.selector.verdictOf .debug t).countedTwice role := by
  unfold searchedTracks
  induction events with
  | nil => rfl
  | cons event rest ih =>
    by_cases haccepted : event.accepted = true
    · have houtput : s.outputOf event = (s.report event).output := if_pos haccepted
      rw [List.filter_cons_of_pos haccepted, List.map_cons, List.sum_cons, ih, houtput,
        countings_report hmode, List.flatMap_cons, List.length_append, List.countP_append]
      exact Nat.add_add_add_comm _ _ _ _
    · rw [List.filter_cons_of_neg haccepted, ih]

/-- Over all events, each track that is searched counts once for a role, and once more if it
is counted twice. -/
theorem countings_gathered {s : Search} (hmode : s.mode = .production) (events : List Event)
    (role : Role) :
    (gathered (s.outputAt events) (List.range events.length)).totals.tracks.countings role =
      (searchedTracks events).length +
        (searchedTracks events).countP fun t =>
          (s.selector.verdictOf .debug t).countedTwice role := by
  have htracks : (gathered (s.outputAt events) (List.range events.length)).totals.tracks =
      ((events.filter (·.accepted)).map fun e => (s.outputOf e).tracks).foldr .add .zero := by
    have hmap := congrArg (List.map (·.tracks)) (map_outputAt s events)
    rw [List.map_map, List.map_map] at hmap
    exact congrArg (List.foldr TrackTally.add .zero) hmap
  rw [htracks, TrackTally.countings_foldr_add, List.map_map]
  exact sum_countings_outputOf hmode events role

end Search

/-! ## Countings -/

open Schedule in
/-- Production counts a role under the first stage that rejects the track, and a second time
under quality exactly if the role was lost on its momentum, another role was not, and then
quality fails. So a run counts each track that it searches once for a role, and those
tracks once more. -/
theorem a_role_is_counted_once_unless_quality_fails_after_it {s : Search} (hs : s.WellFormed)
    (hmode : s.mode = .production) (role : Role) :
    (∀ t, ∃ production debug,
      s.selector.inspect t .production = .ok production ∧
      s.selector.inspect t .debug = .ok debug ∧
      ((production.get role).granted = true →
        ∀ stage, (production.get role).rejected.get stage = false) ∧
      (∀ stage, (production.get role).rejected.get stage = true ↔
        (debug.get role).firstRejection? = some stage ∨
        stage = .quality ∧ debug.countedTwice role = true) ∧
      ((∀ stage, (production.get role).rejected.get stage = true ↔
        (debug.get role).firstRejection? = some stage) ↔ debug.countedTwice role = false) ∧
      (production.get role).countings = 1 + (debug.countedTwice role).toNat) ∧
    ∀ (events : List Event) (m : Type → Type) [Monad m] [LawfulMonad m]
      (write : Sink (ExceptT Fault m)),
      OnlyReturns
        (fun total =>
          total.totals.tracks.countings role =
            (Search.searchedTracks events).length +
              (Search.searchedTracks events).countP (fun t =>
                (s.selector.verdictOf .debug t).countedTwice role) ∧
          (total.totals.tracks.countings role = (Search.searchedTracks events).length ↔
            ∀ t ∈ Search.searchedTracks events,
              (s.selector.verdictOf .debug t).countedTwice role = false))
        (sequential events.length
          (fun range => raise (s.processRange (.recorded events.toArray) range)) write) := by
  constructor
  · intro t
    refine ⟨_, _, TrackSelector.inspect_eq hs.selector t .production,
      TrackSelector.inspect_eq hs.selector t .debug, ?_, ?_, ?_, ?_⟩
    · exact TrackSelector.not_rejected_of_granted _ _
    · exact TrackSelector.rejected_judge_production_iff _ _ role
    · exact TrackSelector.rejected_once_iff _ _ role
    · exact TrackSelector.countings_judge_production _ _ role
  · intro events m _ _ write
    have hkernel : ∀ range : EventRange, range.stop ≤ events.length →
        (raise (s.processRange (.recorded events.toArray) range) : ExceptT Fault m _) =
          raise (integrateRange (s.outputAt events) range) := fun range hrange =>
      congrArg raise (Search.processRange_recorded hs events hrange)
    refine onlyReturns_of_imp (onlyReturns_gathered (s.outputAt events) hkernel write) ?_
    intro total htotal
    rw [htotal, Search.countings_gathered hmode events role]
    refine ⟨rfl, ?_⟩
    rw [Nat.add_eq_left, List.countP_eq_zero]
    simp only [Bool.not_eq_true]

namespace Sample

/-- A selector that asks two-prong legs for more momentum, and all tracks for clusters. -/
def strictSelector : TrackSelector :=
  ⟨{ selector.roles with twoProng := { roleCuts with ptMin := 2 } }, ⟨true, 70⟩⟩

def strictSearch : Search := { search false false with selector := strictSelector }

/-- A track with little momentum and no clusters. -/
def slowTrack : Track := track 1 .positive ⟨1, 0, 0⟩

theorem strictSelector_wellFormed : strictSelector.WellFormed := by
  intro role
  cases role
  · exact ⟨(selector_wellFormed .twoProngLeg).table, (selector_wellFormed .twoProngLeg).columns⟩
  · exact selector_wellFormed .threeProngLeg
  · exact selector_wellFormed .bachelorLeg

theorem strictSearch_wellFormed : strictSearch.WellFormed :=
  ⟨strictSelector_wellFormed, hypotheses_wellFormed⟩

/-- The track is too slow for a two-prong leg only, so it is counted twice unless its
pseudorapidity rules out every role. -/
theorem countedTwice_slowTrack :
    (strictSelector.verdictOf .debug slowTrack).countedTwice .twoProngLeg =
      decide (slowTrack.eta.abs ≤ 10) := by
  have hslow : decide ((2 : Float) ≤ slowTrack.pt) = false := by decide +kernel
  have hfast : decide ((0 : Float) ≤ slowTrack.pt) = true := by decide +kernel
  have hquality : strictSelector.quality.passes slowTrack.quality = false := by decide
  have hchecks : (strictSelector.roles.map fun c => TrackSelector.checksOf c slowTrack) =
      ⟨⟨false, slowTrack.eta.abs ≤ 10, roleCuts.admitsDca slowTrack⟩,
        ⟨true, slowTrack.eta.abs ≤ 10, roleCuts.admitsDca slowTrack⟩,
        ⟨true, slowTrack.eta.abs ≤ 10, roleCuts.admitsDca slowTrack⟩⟩ := by
    rw [← hslow, ← hfast]
    rfl
  unfold TrackSelector.verdictOf
  rw [hchecks, TrackSelector.countedTwice_judge_debug, TrackSelector.anyLeft_production, hquality]
  cases decide (slowTrack.eta.abs ≤ 10) <;> rfl

end Sample

open Schedule Sample in
theorem a_slow_track_without_clusters_is_counted_twice :
    (∃ production, strictSelector.inspect slowTrack .production = .ok production ∧
      (production.get .twoProngLeg).countings = 1 + (decide (slowTrack.eta.abs ≤ 10)).toNat) ∧
    OnlyReturns
      (fun total => total.totals.tracks.countings .twoProngLeg =
        1 + (decide (slowTrack.eta.abs ≤ 10)).toNat)
      (sequential 1
        (fun range => raise (strictSearch.processRange
          (.recorded #[⟨.zero, true, [slowTrack], []⟩]) range))
        (fun _ => pure ()) : ExceptT Fault Id RunAccumulator) := by
  obtain ⟨htrack, hrun⟩ := a_role_is_counted_once_unless_quality_fails_after_it
    strictSearch_wellFormed rfl .twoProngLeg
  constructor
  · obtain ⟨production, debug, hproduction, hdebug, _, _, _, hcountings⟩ := htrack slowTrack
    have hverdict : debug = strictSelector.verdictOf .debug slowTrack :=
      Except.ok.inj (hdebug.symm.trans
        (TrackSelector.inspect_eq strictSelector_wellFormed slowTrack .debug))
    refine ⟨production, hproduction, ?_⟩
    rw [hcountings, hverdict, countedTwice_slowTrack]
  · refine onlyReturns_of_imp (hrun [⟨.zero, true, [slowTrack], []⟩] Id fun _ => pure ()) ?_
    intro total ⟨htotal, _⟩
    have hsearched : Search.searchedTracks [⟨.zero, true, [slowTrack], []⟩] = [slowTrack] := rfl
    have hselector : strictSearch.selector = strictSelector := rfl
    rw [htotal, hsearched, hselector, List.countP_singleton, countedTwice_slowTrack]
    cases decide (slowTrack.eta.abs ≤ 10) <;> rfl

end DecaySearch
