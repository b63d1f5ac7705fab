-- The display of the results of a run, and the summary that is kept of it.
import DecaySearch.Run

namespace DecaySearch.RunResults

/-! ## Contents -/

/-- The enabled hypotheses of an arity, each with its bit. -/
def enabledHypotheses (group : HypothesisGroup) : List (DecayHypothesis × Nat) :=
  group.hypotheses.zipIdx.filter fun (h, _) => h.enabled

/-- The mass matches that are reported. An accepted candidate has one of them. -/
def reportedMatches : List PermutationMatch := [.first, .second, .both]

/-- One line for each enabled hypothesis, two-prong decays first. -/
def forEachHypothesis {α : Type} (r : RunResults) (hypotheses : HypothesisSet)
    (make : HypothesisTally → Decay → Nat → List α) : List α :=
  [Arity.twoProng, Arity.threeProng].flatMap fun arity =>
    (enabledHypotheses (hypotheses.group arity)).flatMap fun (h, bit) =>
      make (r.tally arity) h.decay bit

/-! ## Display -/

/-- A name in a column of fixed width, and a number. -/
def countLine (name : String) (n : Nat) : String := Number.padRight 17 name ++ s!": {n}"

/-- A number in a column of fixed width. -/
def column (width n : Nat) : String := Number.padLeft width (toString n)

def roleLine (r : RunResults) (role : Role) : String :=
  let rejected := r.totals.tracks.rejected.get role
  Number.padRight 9 role.name ++ ": " ++ column 8 (r.totals.tracks.selected.get role) ++ " |"
    ++ String.join (TrackStage.all.map fun stage => " " ++ column 8 (rejected.get stage))

def hypothesisLine (tally : HypothesisTally) (decay : Decay) (bit : Nat) : String :=
  Number.padRight 13 decay.name ++ ": " ++ column 8 (tally.accepted bit) ++ " |"
    ++ String.join (reportedMatches.map fun m => " " ++ column 9 (tally.matched bit m))

def display (r : RunResults) (hypotheses : HypothesisSet) : List String :=
  ["",
   countLine "Events" r.totals.processedEvents,
   countLine "... rejected" r.totals.rejectedEvents,
   countLine "Tagged tracks" r.totals.counts.taggedTracks,
   countLine "Vertex fits" r.totals.counts.fitsAttempted,
   countLine "... failed" r.totals.counts.fitsFailed,
   countLine "2-prong cands" r.totals.counts.twoProng,
   countLine "3-prong cands" r.totals.counts.threeProng,
   countLine "Cascade cands" r.totals.counts.cascades,
   "",
   "Role     : selected |       pT      eta  quality      dca"]
  ++ Role.all.map r.roleLine
  ++ ["",
      "Decay        : accepted |     perm0     perm1      both"]
  ++ r.forEachHypothesis hypotheses (fun tally decay bit => [hypothesisLine tally decay bit])
  ++ ["",
      "Elapsed time     : " ++ r.elapsed.text]

/-! ## Summary -/

/-- Every line of a summary begins with a space. -/
def summaryLine (content : String) : String := " " ++ content

def separator : String := summaryLine (Number.fill 45 '-')

def entry (key value : String) : String := summaryLine (Number.padRight 31 key ++ ": " ++ value)

def countEntry (key : String) (n : Nat) : String := entry key (toString n)

/-- A number of seconds has seven significant digits. -/
def secondsEntry (key : String) (seconds : Float) : String :=
  entry key (Number.scientific 7 seconds)

def roleEntries (r : RunResults) (role : Role) : List String :=
  let rejected := r.totals.tracks.rejected.get role
  countEntry s!"{role.name} tracks selected" (r.totals.tracks.selected.get role)
    :: TrackStage.all.map fun stage =>
      countEntry s!"{role.name} rejected by {stage.name}" (rejected.get stage)

def hypothesisEntries (tally : HypothesisTally) (decay : Decay) (bit : Nat) : List String :=
  countEntry decay.name (tally.accepted bit)
    :: reportedMatches.map fun m =>
      countEntry s!"{decay.name} {m.name}" (tally.matched bit m)

/-- The times of a run, which are the only entries that differ from one run to
another of the same events. -/
def timeEntries (r : RunResults) : List String :=
  [secondsEntry "Elapsed time (s)" r.elapsed.seconds,
   secondsEntry "Elapsed time per event (s)" r.secondsPerEvent]

def countEntries (r : RunResults) (hypotheses : HypothesisSet) : List String :=
  [separator,
   countEntry "Events processed" r.totals.processedEvents,
   countEntry "Events rejected upstream" r.totals.rejectedEvents,
   countEntry "Role-tagged tracks" r.totals.counts.taggedTracks,
   countEntry "Vertex fits attempted" r.totals.counts.fitsAttempted,
   countEntry "Vertex fits failed" r.totals.counts.fitsFailed,
   countEntry "2-prong candidates" r.totals.counts.twoProng,
   countEntry "3-prong candidates" r.totals.counts.threeProng,
   countEntry "Cascade candidates" r.totals.counts.cascades,
   separator]
  ++ Role.all.flatMap r.roleEntries
  ++ [separator]
  ++ r.forEachHypothesis hypotheses hypothesisEntries
  ++ [separator]

/-- The lines of the summary, which begins with the time at which it was
written. -/
def summary (r : RunResults) (time : String) (hypotheses : HypothesisSet) : List String :=
  summaryLine time :: (r.countEntries hypotheses ++ r.timeEntries)

end DecaySearch.RunResults
