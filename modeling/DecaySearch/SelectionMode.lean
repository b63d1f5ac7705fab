-- Whether a selection stops at the first cut that fails.

namespace DecaySearch

/-- In production a selection stops as soon as its outcome is known. In debug
mode it evaluates every cut, so that each verdict can be inspected. -/
inductive SelectionMode
  | production
  | debug
  deriving DecidableEq

namespace SelectionMode

def ofDebug (debug : Bool) : SelectionMode := if debug then .debug else .production

def isDebug (mode : SelectionMode) : Bool := mode = .debug

/-- Truth that a cut is evaluated on something that may have failed before. -/
def evaluates (mode : SelectionMode) (stillSelected : Bool) : Bool :=
  mode.isDebug || stillSelected

end SelectionMode

end DecaySearch
