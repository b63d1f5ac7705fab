-- The ways in which a caller can break a promise. A fault is never an answer
-- about the data: it says that a function was used outside its domain.
import DecaySearch.Decay

namespace DecaySearch

inductive Fault
  /-- A candidate was formed from the wrong number of tracks. -/
  | wrongProngCount
  /-- A candidate was formed from tracks with the wrong charges. -/
  | wrongCharges
  /-- No arity has this number of tracks. -/
  | noTopology (prongs : Nat)
  /-- A combination was evaluated whose charges do not fit its arity. -/
  | chargeMismatch (charges : List Sign) (arity : Arity)
  /-- A column was read that the table does not have. -/
  | missingColumn (column : CutVariable)
  /-- A bin was read that the table does not have. -/
  | missingBin
  /-- Masses were not given to exactly the daughters. -/
  | massCount
  /-- A selection that needs a vertex was applied before the fit. -/
  | unfitted
  /-- The margin of the pre-fit transverse momentum is negative or not a number. -/
  | invalidTolerance
  /-- A mask has no room for all hypotheses. -/
  | tooManyHypotheses
  /-- A hypothesis was put into the group of another arity. -/
  | wrongArity (decay : Decay)
  /-- A hypothesis is not at the position of its bit. -/
  | outOfOrder (decay : Decay)
  /-- A candidate was tested against hypotheses of another arity. -/
  | arityMismatch (hypotheses candidate : Arity)
  /-- A list was read beyond its end. -/
  | outOfBounds (length index : Nat)
  /-- A bit was asked for that its byte does not have. -/
  | bitOutsideByte
  /-- A counter passed the largest number of 64 bits. -/
  | counterOverflow
  /-- The transverse momentum range of generated particles is empty or not positive. -/
  | invalidPtRange
  /-- A random number was asked for from a range without finite numbers. -/
  | emptyRange
  /-- A random choice was asked for with a probability outside [0, 1]. -/
  | invalidProbability
  /-- A run was closed while rows were still to be written. -/
  | unwrittenRows
  /-- A run was started without events. -/
  | noEvents
  /-- A batch reported its result a second time. -/
  | resultReportedTwice
  /-- A batch did not report its result. -/
  | resultMissing
  deriving DecidableEq

namespace Fault

/-- The text of a fault. Those without a text are not explained to users. -/
def message : Fault → String
  | .wrongProngCount => "Wrong number of prongs"
  | .wrongCharges => "Prongs do not follow the expected charge pattern"
  | .noTopology prongs => s!"No decay topology has {prongs} prongs"
  | .chargeMismatch charges arity =>
    let names := ", ".intercalate (charges.map Sign.name)
    s!"Charges [{names}] do not match the pattern of {arity.name} decays"
  | .missingColumn v => s!"Cut variable {v.label} should have been required at construction"
  | .missingBin => "Matrix index out of bounds."
  | .massCount => "assertion `left == right` failed"
  | .unfitted => "Only fitted candidates can be postselected"
  | .invalidTolerance => "Invalid pT tolerance"
  | .tooManyHypotheses => "Too many hypotheses for a mask"
  | .wrongArity decay => s!"Hypothesis {decay.name} has wrong arity"
  | .outOfOrder decay => s!"Hypothesis {decay.name} is out of order"
  | .arityMismatch _ _ => "assertion `left == right` failed"
  | .outOfBounds length index =>
    s!"index out of bounds: the len is {length} but the index is {index}"
  | .bitOutsideByte => "attempt to shift left with overflow"
  | .counterOverflow => "attempt to add with overflow"
  | .invalidPtRange => "Invalid pT range"
  | .emptyRange => ""
  | .invalidProbability => ""
  | .unwrittenRows => "Emitted rows should have been written"
  | .noEvents => "Must process at least one event"
  | .resultReportedTwice => "Tasks should not report results twice"
  | .resultMissing => "Result should be ready"

end Fault

end DecaySearch
