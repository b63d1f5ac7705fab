-- What the search reports about an event while it runs.
import DecaySearch.Search

namespace DecaySearch

inductive Notice
  /-- The event was rejected before the search. -/
  | skipped
  | fitFailed (tracks : List TrackId)
  | cascadeFitFailed (bachelor : TrackId) (v0 : V0Id)
  | processed (tracks : Nat) (counts : EventCounts)
  deriving DecidableEq

namespace Notice

def text : Notice → String
  | .skipped => "DEBUG Skipping event rejected by the upstream selection"
  | .fitFailed tracks =>
    let ids := ", ".intercalate (tracks.map fun id => toString id.value)
    s!"TRACE Vertex fit failed tracks=[{ids}]"
  | .cascadeFitFailed bachelor v0 =>
    s!"TRACE Cascade vertex fit failed bachelor={bachelor.value} v0={v0.value}"
  | .processed tracks c =>
    s!"DEBUG Processed event tracks={tracks} tagged={c.taggedTracks} two_prong={c.twoProng} "
      ++ s!"three_prong={c.threeProng} cascades={c.cascades} fits={c.fitsAttempted} "
      ++ s!"failed_fits={c.fitsFailed}"

def ofCandidateCall? (call : FitCall) : Option Notice :=
  if call.vertex.isSome then none else some (.fitFailed (call.tracks.map (·.id)))

/-- The notice of a failed fit of a V0 line and a bachelor. -/
def ofCascadeCall? (call : FitCall) : Option Notice :=
  match call.vertex, call.tracks with
  | none, [line, bachelor] => some (.cascadeFitFailed bachelor.id ⟨line.id.value⟩)
  | _, _ => none

def ofReport (event : Event) (report : EventReport) : List Notice :=
  if event.accepted then
    report.candidateCalls.filterMap ofCandidateCall?
      ++ report.cascadeCalls.filterMap ofCascadeCall?
      ++ [.processed event.tracks.length report.output.counts]
  else [.skipped]

end Notice

end DecaySearch
