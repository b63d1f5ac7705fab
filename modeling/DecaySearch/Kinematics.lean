-- Kinematic quantities of tracks and decay candidates. Momenta are in GeV/c,
-- masses in GeV/c², lengths in cm. A quantity that has no value is NaN, and
-- every cut that reads it decides what NaN means there.
import DecaySearch.Geometry
import DecaySearch.Fault

namespace DecaySearch.Kinematics

/-- The value of a quantity that is not defined. -/
def undefinedValue : Float := 0 / 0

def pt (p : Momentum) : Float := p.transverse

/-- The pseudorapidity. It is infinite along the beam, and undefined for a
momentum of zero. -/
def eta (p : Momentum) : Float := (p.z / pt p).asinh

/-- The total momentum, summed from zero in the order of the daughters. -/
def totalMomentum (momenta : List Momentum) : Momentum := momenta.foldl (· + ·) .zero

/-- The energy of a particle of known mass. -/
def energy (p : Momentum) (mass : Float) : Float := (p.normSquared + mass * mass).sqrt

/-- The total energy, summed from zero in the order of the daughters. -/
def totalEnergy (momenta : List Momentum) (masses : List Float) : Float :=
  (List.zipWith energy momenta masses).foldl (· + ·) 0

/-- The squared invariant mass of daughters whose masses are given in their
order. -/
def massSquared (momenta : List Momentum) (masses : List Float) : Float :=
  let e := totalEnergy momenta masses
  e * e - (totalMomentum momenta).normSquared

/-- The squared invariant mass under a mass assignment, which must give a mass
to each daughter and to nothing else. -/
def assignedMassSquared (momenta : List Momentum) (masses : List Float) : Except Fault Float :=
  if momenta.length = masses.length then .ok (massSquared momenta masses)
  else .error .massCount

/-- The cosine of the angle between the flight line and the momentum. It is
undefined if either of them is zero. -/
def cosPointingAngle (primary secondary : Position) (p : Momentum) : Float :=
  let flight := secondary - primary
  let norms := flight.norm * p.norm
  if norms > 0 then flight.dot p / norms else undefinedValue

def decayLength (primary secondary : Position) : Float := (secondary - primary).norm

/-- The signed transverse distance of closest approach of a straight line to a
point. The sign follows the transverse cross product. -/
def impactParameterXY (point origin : Position) (direction : Momentum) : Float :=
  let d := origin - point
  (d.x * direction.y - d.y * direction.x) / pt direction

/-- The longitudinal distance of a straight line to a point, where the line is
closest to it in the transverse plane. -/
def impactParameterZ (point origin : Position) (direction : Momentum) : Float :=
  let d := origin - point
  let squared := direction.x * direction.x + direction.y * direction.y
  let t := -(d.x * direction.x + d.y * direction.y) / squared
  d.z + t * direction.z

end DecaySearch.Kinematics
