-- Event files: JSON texts that list events. The whole text is decoded before
-- anything is checked. Then the events are checked in order, and in each event
-- the tracks before the V0s.
import DecaySearch.Event
import DecaySearch.Text.Json

namespace DecaySearch

/-! ## Records -/

structure TrackRecord where
  id : UInt64
  p : Vec3
  charge : Int
  dcaXY : Float
  dcaZ : Float
  position : Vec3
  tpcClusters : UInt16
  /-- As many as the clusters, if it is not given. -/
  tpcCrossedRows : Option UInt16
  tpcRefit : Bool
  itsRefit : Bool
  itsClusterMap : UInt8

structure V0Record where
  id : UInt64
  positive : UInt64
  negative : UInt64
  vertex : Vec3

structure EventRecord where
  primaryVertex : Vec3
  accepted : Bool
  tracks : List TrackRecord
  v0s : List V0Record

section

variable {ν : Type} [Text.Structured ν]

def Vec3.decode (v : ν) : Option Vec3 := do
  match ← Text.list Text.float v with
  | [x, y, z] => some ⟨x, y, z⟩
  | _ => none

def TrackRecord.decode (v : ν) : Option TrackRecord := do
  let fields ← Text.fields
    ["id", "p", "charge", "dca_xy", "dca_z", "position", "tpc_clusters", "tpc_crossed_rows",
     "tpc_refit", "its_refit", "its_cluster_map"] false v
  let id ← Text.required fields "id" Text.word64
  let p ← Text.required fields "p" Vec3.decode
  let charge ← Text.required fields "charge" (Text.intWithin (-2147483648) 2147483647)
  let dcaXY ← Text.required fields "dca_xy" Text.float
  let dcaZ ← Text.required fields "dca_z" Text.float
  let position ← Text.required fields "position" Vec3.decode
  let tpcClusters ← Text.required fields "tpc_clusters" Text.word16
  let tpcCrossedRows ←
    Text.defaulted fields "tpc_crossed_rows" none (Text.optional Text.word16)
  let tpcRefit ← Text.defaulted fields "tpc_refit" true Text.bool
  let itsRefit ← Text.required fields "its_refit" Text.bool
  let itsClusterMap ← Text.required fields "its_cluster_map" Text.byte
  some
    { id, p, charge, dcaXY, dcaZ, position, tpcClusters, tpcCrossedRows, tpcRefit, itsRefit,
      itsClusterMap }

def V0Record.decode (v : ν) : Option V0Record := do
  let fields ← Text.fields ["id", "positive", "negative", "vertex"] false v
  let id ← Text.required fields "id" Text.word64
  let positive ← Text.required fields "positive" Text.word64
  let negative ← Text.required fields "negative" Text.word64
  let vertex ← Text.required fields "vertex" Vec3.decode
  some { id, positive, negative, vertex }

def EventRecord.decode (v : ν) : Option EventRecord := do
  let fields ← Text.fields ["primary_vertex", "accepted", "tracks", "v0s"] false v
  let primaryVertex ← Text.required fields "primary_vertex" Vec3.decode
  let accepted ← Text.defaulted fields "accepted" true Text.bool
  let tracks ← Text.required fields "tracks" (Text.list TrackRecord.decode)
  let v0s ← Text.defaulted fields "v0s" [] (Text.list V0Record.decode)
  some { primaryVertex, accepted, tracks, v0s }

end

/-! ## Errors -/

inductive V0Error
  | unknownTrack (v0 : V0Id) (track : TrackId)
  | wrongSign (v0 : V0Id) (track : TrackId) (expected found : Sign)
  deriving DecidableEq

namespace V0Error

def message : V0Error → String
  | .unknownTrack v0 track => s!"V0 {v0.value} refers to unknown track {track.value}"
  | .wrongSign v0 track expected found =>
    s!"V0 {v0.value} expects track {track.value} to be {expected.name}, "
      ++ s!"but it is {found.name}"

end V0Error

inductive EventFileError
  | malformed
  | unchargedTrack (event : Nat) (track : TrackId)
  | v0 (event : Nat) (defect : V0Error)
  deriving DecidableEq

namespace EventFileError

/-- The texts of an error, from the outermost context inwards. The source is
empty, or says where a malformed text was found. -/
def chain (source : String) : EventFileError → List String
  | .malformed => ["Invalid event data" ++ source]
  | .unchargedTrack event track =>
    [s!"Invalid track in event #{event}", s!"Track {track.value} is not charged"]
  | .v0 event defect => [s!"Invalid V0 in event #{event}", defect.message]

def message (e : EventFileError) : String := ": ".intercalate (e.chain "")

end EventFileError

/-! ## Checks -/

/-- The track of a record, which must have a charge. -/
def TrackRecord.toTrack? (r : TrackRecord) : Option Track :=
  (Sign.ofCharge? r.charge).map fun sign =>
    { id := ⟨r.id⟩
      momentum := r.p
      sign
      dcaXY := r.dcaXY
      dcaZ := r.dcaZ
      position := r.position
      quality :=
        { tpcClusters := r.tpcClusters
          tpcCrossedRows := r.tpcCrossedRows.getD r.tpcClusters
          tpcRefit := r.tpcRefit
          itsRefit := r.itsRefit
          itsClusterMap := r.itsClusterMap } }

/-- Checks a daughter: the first track with its identity must have its sign. -/
def V0Record.checkDaughter (r : V0Record) (tracks : List Track) (daughter : UInt64)
    (expected : Sign) : Except V0Error Unit :=
  match tracks.find? (·.id = ⟨daughter⟩) with
  | none => .error (.unknownTrack ⟨r.id⟩ ⟨daughter⟩)
  | some track =>
    if track.sign = expected then .ok ()
    else .error (.wrongSign ⟨r.id⟩ ⟨daughter⟩ expected track.sign)

/-- The V0 of a record, whose daughters must be tracks of the event. -/
def V0Record.toV0 (r : V0Record) (tracks : List Track) : Except V0Error V0 := do
  r.checkDaughter tracks r.positive .positive
  r.checkDaughter tracks r.negative .negative
  pure ⟨⟨r.id⟩, ⟨r.positive⟩, ⟨r.negative⟩, r.vertex⟩

namespace EventFile

def readTracks (index : Nat) : List TrackRecord → Except EventFileError (List Track)
  | [] => .ok []
  | r :: rest =>
    match r.toTrack? with
    | none => .error (.unchargedTrack index ⟨r.id⟩)
    | some track => (readTracks index rest).map (track :: ·)

def readV0s (index : Nat) (tracks : List Track) : List V0Record → Except EventFileError (List V0)
  | [] => .ok []
  | r :: rest =>
    match r.toV0 tracks with
    | .error defect => .error (.v0 index defect)
    | .ok v0 => (readV0s index tracks rest).map (v0 :: ·)

def readEvent (index : Nat) (r : EventRecord) : Except EventFileError Event := do
  let tracks ← readTracks index r.tracks
  let v0s ← readV0s index tracks r.v0s
  pure { primaryVertex := r.primaryVertex, accepted := r.accepted, tracks, v0s }

/-- The events of records, counted from an index on. -/
def readEventsFrom (index : Nat) : List EventRecord → Except EventFileError (List Event)
  | [] => .ok []
  | r :: rest => do
    let event ← readEvent index r
    let events ← readEventsFrom (index + 1) rest
    pure (event :: events)

/-- Checks the records of a file. Nothing is kept of a file with an error. -/
def ofRecords (records : List EventRecord) : Except EventFileError (List Event) :=
  readEventsFrom 0 records

def ofText (text : String) : Except EventFileError (List Event) :=
  match (Text.Json.ofText? text).bind (Text.list EventRecord.decode) with
  | none => .error .malformed
  | some records => ofRecords records

end EventFile

end DecaySearch
