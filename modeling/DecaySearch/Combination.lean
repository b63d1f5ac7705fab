-- The combinations of tracks that may come from one decay. They are enumerated
-- in a fixed order, which is also the order of the output.
import DecaySearch.TrackSelection

namespace DecaySearch

/-- A track with the roles that it was tagged with. -/
structure TaggedTrack where
  track : Track
  roles : RoleMask
  deriving DecidableEq

namespace Combination

/-- Which tracks and which decays a search looks at. -/
structure Scope where
  /-- Truth that a track needs no role for its place. -/
  exhaustive : Bool
  /-- Truth that triplets are formed. -/
  threeProng : Bool
  deriving DecidableEq

namespace Scope

def allows (s : Scope) (role : Role) (t : TaggedTrack) : Bool :=
  s.exhaustive || t.roles.contains role

def allowsPair (s : Scope) (t : TaggedTrack) : Bool := s.allows .twoProngLeg t

def allowsTriplet (s : Scope) (t : TaggedTrack) : Bool :=
  s.threeProng && s.allows .threeProngLeg t

def allowsAny (s : Scope) (t : TaggedTrack) : Bool := s.allowsPair t || s.allowsTriplet t

end Scope

/-- Each element with the elements behind it. -/
def withLater {α : Type} : List α → List (α × List α)
  | [] => []
  | a :: rest => (a, rest) :: withLater rest

/-- The later tracks of the same charge that complete a triplet. A track is
never combined with itself. -/
def partners (s : Scope) (t : TaggedTrack) (later : List TaggedTrack) : List TaggedTrack :=
  later.filter fun u => s.allowsTriplet u && u.track.id ≠ t.track.id

/-- The pair of a positive and a negative track. -/
def pairs (s : Scope) (p n : TaggedTrack) : List (List Track) :=
  if s.allowsPair p && s.allowsPair n then [[p.track, n.track]] else []

/-- The triplets that a positive and a negative track begin: first those with
a second positive track, then those with a second negative one. -/
def triplets (s : Scope) (p n : TaggedTrack) (laterP laterN : List TaggedTrack) :
    List (List Track) :=
  if s.allowsTriplet p && s.allowsTriplet n then
    (partners s p laterP).map (fun q => [p.track, n.track, q.track])
      ++ (partners s n laterN).map fun q => [n.track, p.track, q.track]
  else []

/-- All combinations, by positive track and then by negative track. -/
def all (s : Scope) (positives negatives : List TaggedTrack) : List (List Track) :=
  (withLater positives).flatMap fun (p, laterP) =>
    if s.allowsAny p then
      (withLater negatives).flatMap fun (n, laterN) =>
        if s.allowsAny n then pairs s p n ++ triplets s p n laterP laterN else []
    else []

end Combination

end DecaySearch
