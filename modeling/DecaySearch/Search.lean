-- The search for decay candidates in one event. Tracks are tagged with their
-- roles, every combination that follows a charge pattern goes through the
-- selections and the fit, and bachelors are paired with V0s at the end.
import DecaySearch.Combination
import DecaySearch.Preselection
import DecaySearch.Postselection
import DecaySearch.Cascade
import DecaySearch.Tally

namespace DecaySearch

/-! ## Evaluation of one combination -/

/-- What happened with the vertex fit of a combination. -/
inductive FitOutcome
  /-- No hypothesis was left to fit for. -/
  | notAttempted
  /-- The fitter found no vertex. -/
  | failed
  | converged
  deriving DecidableEq

namespace FitOutcome

def name : FitOutcome → String
  | .notAttempted => "NotAttempted"
  | .failed => "Failed"
  | .converged => "Converged"

end FitOutcome

/-- The outcome of all selections on a combination. -/
structure Evaluation where
  candidate : Candidate
  fit : FitOutcome
  /-- The calls of the fitter. -/
  calls : List FitCall
  deriving DecidableEq

namespace Evaluation

/-- Truth that the candidate is part of the output. -/
def accepted (e : Evaluation) : Bool := e.fit = .converged && !e.candidate.hypotheses.isEmpty

end Evaluation

/-! ## Output of one event -/

/-- What the search found in one event. -/
structure EventOutput where
  /-- Truth that the event was searched at all. -/
  accepted : Bool
  twoProng : List CandidateRow
  threeProng : List CandidateRow
  cascades : List Cascade.Row
  counts : EventCounts
  tracks : TrackTally
  twoProngTally : HypothesisTally
  threeProngTally : HypothesisTally
  deriving DecidableEq

namespace EventOutput

def empty (accepted : Bool) : EventOutput where
  accepted
  twoProng := []
  threeProng := []
  cascades := []
  counts := .zero
  tracks := .zero
  twoProngTally := .zero
  threeProngTally := .zero

def append (a b : EventOutput) : EventOutput where
  accepted := a.accepted
  twoProng := a.twoProng ++ b.twoProng
  threeProng := a.threeProng ++ b.threeProng
  cascades := a.cascades ++ b.cascades
  counts := a.counts.add b.counts
  tracks := a.tracks.add b.tracks
  twoProngTally := a.twoProngTally.add b.twoProngTally
  threeProngTally := a.threeProngTally.add b.threeProngTally

def ofCandidate (mode : SelectionMode) (c : Candidate) : Except Fault EventOutput := do
  let tally ← HypothesisTally.zero.record c.hypotheses c.permutations
  match c.arity with
  | .twoProng =>
    pure
      { empty true with
        twoProng := [c.toRow mode]
        counts := { EventCounts.zero with twoProng := 1 }
        twoProngTally := tally }
  | .threeProng =>
    pure
      { empty true with
        threeProng := [c.toRow mode]
        counts := { EventCounts.zero with threeProng := 1 }
        threeProngTally := tally }

/-- What the fit of a combination counts for. -/
def fitCounts : FitOutcome → EventCounts
  | .notAttempted => .zero
  | .failed => { EventCounts.zero with fitsAttempted := 1, fitsFailed := 1 }
  | .converged => { EventCounts.zero with fitsAttempted := 1 }

def ofEvaluation (mode : SelectionMode) (e : Evaluation) : Except Fault EventOutput := do
  let found ← if e.accepted then ofCandidate mode e.candidate else pure (empty true)
  pure { found with counts := (fitCounts e.fit).add found.counts }

def ofCascades (found : Cascade.Output) : EventOutput :=
  { empty true with
    cascades := found.rows
    counts :=
      { EventCounts.zero with
        cascades := found.rows.length
        fitsAttempted := found.fitsAttempted
        fitsFailed := found.fitsFailed } }

end EventOutput

/-- The output of an event, and the calls of the fitter that led to it. -/
structure EventReport where
  output : EventOutput
  /-- The fits of pairs and triplets. -/
  candidateCalls : List FitCall
  /-- The fits of cascades, which come last. -/
  cascadeCalls : List FitCall
  deriving DecidableEq

namespace EventReport

/-- All calls of the fitter, in their order. -/
def calls (r : EventReport) : List FitCall := r.candidateCalls ++ r.cascadeCalls

def empty (accepted : Bool) : EventReport := ⟨.empty accepted, [], []⟩

def append (a b : EventReport) : EventReport :=
  ⟨a.output.append b.output, a.candidateCalls ++ b.candidateCalls,
   a.cascadeCalls ++ b.cascadeCalls⟩

/-- Puts the reports of the parts of a search together. -/
def concat (parts : List EventReport) : EventReport := parts.foldr append (empty true)

def ofEvaluation (mode : SelectionMode) (e : Evaluation) : Except Fault EventReport :=
  (EventOutput.ofEvaluation mode e).map fun output => ⟨output, e.calls, []⟩

def ofCascades (found : Cascade.Output) : EventReport := ⟨.ofCascades found, [], found.calls⟩

end EventReport

/-! ## The search -/

/-- The settings of the search that no event changes. -/
structure SearchSettings where
  /-- The margin that is added to the transverse momentum before the fit. -/
  ptTolerance : Float
  /-- Evaluates every cut. -/
  debug : Bool
  doThreeProng : Bool
  /-- In debug mode, forms combinations of tracks without roles as well. -/
  exhaustiveDebug : Bool
  deriving DecidableEq

/-- A search that is ready to look at events. -/
structure Search where
  selector : TrackSelector
  hypotheses : HypothesisSet
  fitter : Fitter
  preselector : Preselector
  scope : Combination.Scope
  cascades : Option CascadeSettings

namespace Search

/-- Sets up a search. Only debug mode can be exhaustive. -/
def make (selector : TrackSelector) (hypotheses : HypothesisSet) (fitter : Fitter)
    (settings : SearchSettings) (cascades : Option CascadeSettings) : Except Fault Search := do
  let preselector ← Preselector.make settings.ptTolerance (.ofDebug settings.debug)
  pure
    { selector, hypotheses, fitter, preselector, cascades
      scope :=
        { exhaustive := settings.debug && settings.exhaustiveDebug
          threeProng := settings.doThreeProng } }

def mode (s : Search) : SelectionMode := s.preselector.mode

/-- Runs the selections and the fit on tracks in enumeration order. The roles
of the tracks are not looked at. The fit is skipped in production if no
hypothesis is left. -/
def evaluate (s : Search) (primary : Position) (prongs : List Track) :
    Except Fault Evaluation := do
  let charges := prongs.map (·.sign)
  match Arity.ofProngs? prongs.length with
  | none => .error (.noTopology prongs.length)
  | some arity =>
    if !arity.acceptsCharges charges then .error (.chargeMismatch charges arity)
    else
      let group := s.hypotheses.group arity
      let fresh ← Candidate.make group prongs
      let candidate ← s.preselector.preselect group fresh
      if !s.mode.evaluates (!candidate.hypotheses.isEmpty) then
        pure ⟨candidate, .notAttempted, []⟩
      else
        let call := s.fitter.call prongs
        match call.vertex with
        | none => pure ⟨candidate, .failed, [call]⟩
        | some vertex =>
          let candidate ← Postselector.postselect s.mode group
            { candidate with vertex := some vertex } primary
          pure ⟨candidate, .converged, [call]⟩

def tag (s : Search) (event : Event) : Except Fault (List (Track × TrackVerdict)) :=
  event.tracks.mapM fun t => do
    let verdict ← s.selector.inspect t s.mode
    pure (t, verdict)

/-- The output before any combination is evaluated. -/
def tagOutput (tagged : List (Track × TrackVerdict)) : EventOutput :=
  let verdicts := tagged.map (·.2)
  { EventOutput.empty true with
    counts :=
      { EventCounts.zero with taggedTracks := verdicts.countP fun v => !v.roles.isEmpty }
    tracks := verdicts.foldl TrackTally.record .zero }

def ofSign (sign : Sign) (tagged : List (Track × TrackVerdict)) : List TaggedTrack :=
  (tagged.filter fun (t, _) => t.sign = sign).map fun (t, v) => ⟨t, v.roles⟩

/-- The combinations of an event, in the order of their evaluation. -/
def combinations (s : Search) (tagged : List (Track × TrackVerdict)) : List (List Track) :=
  Combination.all s.scope (ofSign .positive tagged) (ofSign .negative tagged)

def bachelors (s : Search) (tagged : List (Track × TrackVerdict)) : List Track :=
  (tagged.filter fun (t, v) => s.scope.allows .bachelorLeg ⟨t, v.roles⟩).map (·.1)

def searchCombination (s : Search) (primary : Position) (prongs : List Track) :
    Except Fault EventReport := do
  let evaluation ← s.evaluate primary prongs
  EventReport.ofEvaluation s.mode evaluation

/-- Searches for cascades, if there are settings for them. -/
def searchCascades (s : Search) (event : Event) (tagged : List (Track × TrackVerdict)) :
    EventReport :=
  match s.cascades with
  | none => .empty true
  | some settings => .ofCascades (Cascade.search settings s.fitter event (s.bachelors tagged))

/-- Searches an event. Nothing is searched in an event that was rejected
before. -/
def process (s : Search) (event : Event) : Except Fault EventReport :=
  if event.accepted then do
    let tagged ← s.tag event
    let found ← (s.combinations tagged).mapM (s.searchCombination event.primaryVertex)
    let cascades := s.searchCascades event tagged
    pure (EventReport.concat (⟨tagOutput tagged, [], []⟩ :: found ++ [cascades]))
  else .ok (.empty false)

end Search

end DecaySearch
