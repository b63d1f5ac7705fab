-- Reconstructed events: tracks, V0s and the primary vertex.
import DecaySearch.Sign
import DecaySearch.Kinematics
import DecaySearch.Number.Notation

namespace DecaySearch

/-! ## Tracks -/

/-- The identity of a track. Combinations compare tracks by identity, never by
their place in a list. -/
structure TrackId where
  value : UInt64
  deriving DecidableEq

structure TrackQuality where
  /-- Clusters found in the TPC. -/
  tpcClusters : UInt16
  /-- Pad rows of the TPC that the track crossed. -/
  tpcCrossedRows : UInt16
  tpcRefit : Bool
  itsRefit : Bool
  /-- Hits in the layers of the ITS, innermost layer first. -/
  itsClusterMap : UInt8
  deriving DecidableEq

namespace TrackQuality

/-- Truth that one of the two innermost layers was hit. -/
def hasInnerHit (q : TrackQuality) : Bool := q.itsClusterMap.toNat % 4 ≠ 0

/-- The quality of a line that was not reconstructed from hits. -/
def absent : TrackQuality := ⟨0, 0, false, false, 0⟩

/-- Truth that a track has enough crossed rows, and a refit if one is asked
for. -/
def passesTpc (q : TrackQuality) (requireRefit : Bool) (minCrossedRows : UInt16) : Bool :=
  (q.tpcRefit || !requireRefit) && minCrossedRows ≤ q.tpcCrossedRows

end TrackQuality

structure Track where
  id : TrackId
  /-- Momentum at the reference point (GeV/c). -/
  momentum : Momentum
  sign : Sign
  /-- Signed transverse distance of closest approach to the primary vertex (cm). -/
  dcaXY : Float
  /-- Longitudinal distance of closest approach to the primary vertex (cm). -/
  dcaZ : Float
  /-- Reference point that vertex fits start from. -/
  position : Position
  quality : TrackQuality
  deriving DecidableEq

namespace Track

def pt (t : Track) : Float := Kinematics.pt t.momentum

def eta (t : Track) : Float := Kinematics.eta t.momentum

end Track

/-! ## V0s -/

structure V0Id where
  value : UInt64
  deriving DecidableEq

/-- A neutral particle that decays into two tracks of opposite charge. -/
structure V0 where
  id : V0Id
  positive : TrackId
  negative : TrackId
  /-- Decay vertex. -/
  vertex : Position
  deriving DecidableEq

/-! ## Events -/

/-- One collision. -/
structure Event where
  primaryVertex : Position
  /-- Truth that the selection before this one kept the event. -/
  accepted : Bool
  tracks : List Track
  v0s : List V0
  deriving DecidableEq

namespace Event

def track? (e : Event) (id : TrackId) : Option Track := e.tracks.find? (·.id = id)

/-- The lines of a dump: the primary vertex, then the tracks, then the V0s,
with tabs between the fields. -/
def dump (e : Event) : List String :=
  let row (fields : List String) : String := "\t".intercalate fields
  let number := Number.positional
  row ("PV" :: e.primaryVertex.components.map number ++ [toString e.accepted])
    :: e.tracks.map (fun t =>
      row [toString t.id.value, t.sign.symbol.toString, number t.pt, number t.eta,
        number t.dcaXY])
    ++ e.v0s.map fun v =>
      row ["V0", toString v.id.value, toString v.positive.value, toString v.negative.value]

end Event

end DecaySearch
