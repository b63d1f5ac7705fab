-- Secondary vertices. A fitter is any function that finds a common point of
-- some tracks. The one at hand takes tracks as straight lines.
import DecaySearch.Candidate

namespace DecaySearch

/-- Finds the common vertex of tracks. To find none is a normal outcome. -/
abbrev Fitter := List Track → Option FittedVertex

/-- A call of a fitter and its answer. -/
structure FitCall where
  tracks : List Track
  vertex : Option FittedVertex
  deriving DecidableEq

/-- Calls a fitter, and keeps a note of it. -/
def Fitter.call (fitter : Fitter) (tracks : List Track) : FitCall := ⟨tracks, fitter tracks⟩

structure FitterSettings where
  /-- Largest distance of the vertex from the beam (cm). -/
  maxRadius : Float
  /-- Largest spread of the reference points along the beam (cm). A value that
  is not positive disables the check. -/
  maxDzInit : Float
  /-- Largest distance of a track from the vertex (cm). -/
  maxDca : Float
  deriving DecidableEq

namespace StraightLine

/-- The projector onto the plane across a track, unless the track has no
direction. -/
def projector? (p : Momentum) : Option Mat3 :=
  let norm := p.norm
  if norm > 0 then
    let direction := p.divide norm
    some (Mat3.identity - Mat3.outer direction direction)
  else none

/-- The smaller of two numbers. A number wins over NaN. -/
def lesser (a b : Float) : Float := if a.isNaN then b else if b < a then b else a

/-- The larger of two numbers. A number wins over NaN. -/
def greater (a b : Float) : Float := if a.isNaN then b else if a < b then b else a

def infinity : Float := 1 / 0

/-- The spread of the reference points along the beam. -/
def dzSpread (tracks : List Track) : Float :=
  let zs := tracks.map (·.position.z)
  zs.foldl greater (-infinity) - zs.foldl lesser infinity

/-- Truth that the reference points are too far apart. -/
def spreadsTooFar (settings : FitterSettings) (tracks : List Track) : Bool :=
  0 < settings.maxDzInit && settings.maxDzInit < dzSpread tracks

/-- The gap between one and the next double. -/
def epsilon : Float := 2.220446049250313e-16

def leftSide (projectors : List Mat3) : Mat3 := projectors.foldl (· + ·) .zero

def rightSide (tracks : List Track) (projectors : List Mat3) : Vec3 :=
  (List.zipWith (fun t p => Mat3.apply p t.position) tracks projectors).foldl (· + ·) .zero

/-- The point that minimises the sum of the squared distances to the lines.
Parallel lines have none. -/
def solve? (tracks : List Track) (projectors : List Mat3) : Option Position :=
  let matrix := leftSide projectors
  if epsilon < matrix.determinant.abs then
    matrix.inverse?.map fun inverse => inverse.apply (rightSide tracks projectors)
  else none

/-- The distance of a track from a point. -/
def distance (point : Position) (track : Track) (projector : Mat3) : Float :=
  (projector.apply (point - track.position)).norm

/-- Truth that a point may be a vertex: it is finite, close enough to the beam
and close enough to each track. -/
def admits (settings : FitterSettings) (tracks : List Track) (projectors : List Mat3)
    (point : Position) : Bool :=
  point.components.all (·.isFinite)
    && !(settings.maxRadius < point.transverse)
    && (tracks.zip projectors).all fun (t, p) => !(settings.maxDca < distance point t p)

/-- Fits a vertex to at least two tracks. The momenta are left as they are. -/
def fit (settings : FitterSettings) : Fitter := fun tracks =>
  if tracks.length < 2 || spreadsTooFar settings tracks then none
  else do
    let projectors ← tracks.mapM fun t => projector? t.momentum
    let point ← solve? tracks projectors
    if admits settings tracks projectors point then
      some ⟨point, tracks.map (·.momentum)⟩
    else none

end StraightLine

end DecaySearch
