-- Spans of time, counted in nanoseconds.
import DecaySearch.Number.Notation

namespace DecaySearch

structure Duration where
  nanoseconds : Nat
  deriving DecidableEq

namespace Duration

def nanosecondsPerSecond : Nat := 1000000000

def ofParts (seconds nanoseconds : Nat) : Duration :=
  ⟨seconds * nanosecondsPerSecond + nanoseconds⟩

/-- The span in seconds. The whole seconds and the rest are rounded apart. -/
def seconds (d : Duration) : Float :=
  Float.ofNat (d.nanoseconds / nanosecondsPerSecond)
    + Float.ofNat (d.nanoseconds % nanosecondsPerSecond) / Float.ofNat nanosecondsPerSecond

/-- A number of units with the places behind the point, less trailing zeros. -/
def amount (nanoseconds nanosecondsPerUnit places : Nat) : String :=
  let whole := nanoseconds / nanosecondsPerUnit
  let rest := nanoseconds % nanosecondsPerUnit
  let digits := Number.padLeft places (toString rest)
  let digits := digits.toList.map fun c => if c = ' ' then '0' else c
  let kept := (digits.reverse.dropWhile (· = '0')).reverse
  if rest = 0 then toString whole else toString whole ++ "." ++ String.ofList kept

/-- The span in the largest unit of which there is at least one. -/
def text (d : Duration) : String :=
  let n := d.nanoseconds
  if nanosecondsPerSecond ≤ n then amount n nanosecondsPerSecond 9 ++ "s"
  else if 1000000 ≤ n then amount n 1000000 6 ++ "ms"
  else if 1000 ≤ n then amount n 1000 3 ++ "µs"
  else toString n ++ "ns"

end Duration

end DecaySearch
