-- The sign of an electric charge.

namespace DecaySearch

/-- The sign of the charge of a track. Neutral particles are fitted as straight
lines, but never take part in a pair or a triplet. -/
inductive Sign
  | positive
  | negative
  | neutral
  deriving DecidableEq

namespace Sign

def opposite : Sign → Sign
  | .positive => .negative
  | .negative => .positive
  | .neutral => .neutral

/-- The sign of a charge that is not zero. -/
def ofCharge? (charge : Int) : Option Sign :=
  if 0 < charge then some .positive
  else if charge < 0 then some .negative
  else none

def name : Sign → String
  | .positive => "Positive"
  | .negative => "Negative"
  | .neutral => "Neutral"

def symbol : Sign → Char
  | .positive => '+'
  | .negative => '-'
  | .neutral => '0'

theorem opposite_opposite (s : Sign) : s.opposite.opposite = s := by cases s <;> rfl

end Sign

end DecaySearch
