-- Cascades: decays into a bachelor track and a V0, here Λc⁺ → K⁰S p. The V0 flies
-- as a neutral straight line from its own decay vertex, and the cascade vertex
-- is fitted to that line and the bachelor.
import DecaySearch.Vertex

namespace DecaySearch

/-! ## Settings -/

structure CascadeSettings where
  /-- Bachelors must be refitted in the TPC. -/
  bachelorTpcRefit : Bool
  bachelorMinCrossedRows : UInt16
  /-- Daughters of V0s must be refitted in the TPC. -/
  daughterTpcRefit : Bool
  daughterMinCrossedRows : UInt16
  /-- Smallest transverse momentum of the daughters of V0s (GeV/c). -/
  daughterPtMin : Float
  /-- Largest absolute pseudorapidity of the daughters of V0s. -/
  daughterEtaMax : Float
  /-- Smallest cosine of the pointing angle of V0s. -/
  cosPointingMin : Float
  /-- Largest distance of the π⁺ π⁻ mass from the K⁰S mass. -/
  v0MassWindow : Float
  /-- Smallest transverse momentum after the fit (GeV/c). -/
  ptMin : Float
  /-- Largest distance of the K⁰S p mass before the fit from the Λc⁺ mass. A
  negative value disables the cut. -/
  cascadeMassWindow : Float
  deriving DecidableEq

namespace CascadeSettings

def standard : CascadeSettings where
  bachelorTpcRefit := true
  bachelorMinCrossedRows := 50
  daughterTpcRefit := true
  daughterMinCrossedRows := 50
  daughterPtMin := 0.05
  daughterEtaMax := 1.1
  cosPointingMin := 0.995
  v0MassWindow := 0.05
  ptMin := -1
  cascadeMassWindow := 1

end CascadeSettings

/-! ## Selection of V0s and bachelors -/

/-- A V0 that was selected, with its flight line. -/
structure SelectedV0 where
  v0 : V0
  line : Track
  deriving DecidableEq

namespace Cascade

/-- Truth that a track is good enough to be a bachelor. -/
def bachelorPasses (s : CascadeSettings) (t : Track) : Bool :=
  t.quality.passesTpc s.bachelorTpcRefit s.bachelorMinCrossedRows

/-- Truth that a track is good enough to be the daughter of a V0. -/
def daughterPasses (s : CascadeSettings) (t : Track) : Bool :=
  t.quality.passesTpc s.daughterTpcRefit s.daughterMinCrossedRows
    && !(t.pt < s.daughterPtMin)
    && t.eta.abs ≤ s.daughterEtaMax

/-- The mass of two daughters of known masses, in the order of the momenta. -/
def mass (momenta : List Momentum) (masses : List Float) : Float :=
  (Kinematics.massSquared momenta masses).sqrt

/-- Truth that a mass is no further from another one than a window. -/
def near (window mass nominal : Float) : Bool := (mass - nominal).abs ≤ window

/-- The straight line from the decay vertex of a V0 along its momentum. -/
def flightLine (primary : Position) (v0 : V0) (momentum : Momentum) : Track where
  id := ⟨v0.id.value⟩
  momentum
  sign := .neutral
  dcaXY := Kinematics.impactParameterXY primary v0.vertex momentum
  dcaZ := Kinematics.impactParameterZ primary v0.vertex momentum
  position := v0.vertex
  quality := .absent

/-- Selects V0s that look like K⁰S mesons from the primary vertex. -/
def selectV0 (s : CascadeSettings) (event : Event) (v0 : V0) : Option SelectedV0 := do
  let positive ← event.track? v0.positive
  let negative ← event.track? v0.negative
  let momenta := [positive.momentum, negative.momentum]
  let momentum := Kinematics.totalMomentum momenta
  let cosPointing := Kinematics.cosPointingAngle event.primaryVertex v0.vertex momentum
  if daughterPasses s positive && daughterPasses s negative
      && near s.v0MassWindow (mass momenta [Mass.pion, Mass.pion]) Mass.k0s
      && s.cosPointingMin ≤ cosPointing then
    some ⟨v0, flightLine event.primaryVertex v0 momentum⟩
  else none

/-! ## Search -/

structure Row where
  bachelor : TrackId
  v0 : V0Id
  deriving DecidableEq

def Row.text (r : Row) : String := s!"{r.bachelor.value}\t{r.v0.value}"

/-- What the search found in one event. -/
structure Output where
  /-- The accepted cascades, by bachelor and then by V0. -/
  rows : List Row
  fitsAttempted : Nat
  fitsFailed : Nat
  /-- The calls of the fitter, in their order. -/
  calls : List FitCall
  deriving DecidableEq

namespace Output

def empty : Output := ⟨[], 0, 0, []⟩

def append (a b : Output) : Output :=
  ⟨a.rows ++ b.rows, a.fitsAttempted + b.fitsAttempted, a.fitsFailed + b.fitsFailed,
   a.calls ++ b.calls⟩

end Output

/-- Truth that the mass before the fit is close enough to the Λc⁺ mass, or is
not looked at. -/
def massPasses (s : CascadeSettings) (line bachelor : Track) : Bool :=
  !(0 ≤ s.cascadeMassWindow)
    || near s.cascadeMassWindow
        (mass [line.momentum, bachelor.momentum] [Mass.k0s, Mass.proton]) Mass.lambdaC

/-- Truth that a pair is worth a fit. A V0 is never paired with one of its own
daughters. -/
def pairPasses (s : CascadeSettings) (bachelor : Track) (selected : SelectedV0) : Bool :=
  bachelor.id ≠ selected.v0.positive
    && bachelor.id ≠ selected.v0.negative
    && massPasses s selected.line bachelor

def vertexPasses (s : CascadeSettings) (vertex : FittedVertex) : Bool :=
  !(Kinematics.pt (Kinematics.totalMomentum vertex.momenta) < s.ptMin)

def fitPair (s : CascadeSettings) (fitter : Fitter) (bachelor : Track) (selected : SelectedV0) :
    Output :=
  let call := fitter.call [selected.line, bachelor]
  { rows :=
      match call.vertex with
      | none => []
      | some v => if vertexPasses s v then [⟨bachelor.id, selected.v0.id⟩] else []
    fitsAttempted := 1
    fitsFailed := if call.vertex.isNone then 1 else 0
    calls := [call] }

/-- The pairs that are fitted, by bachelor and then by V0. -/
def pairs (s : CascadeSettings) (event : Event) (bachelors : List Track) :
    List (Track × SelectedV0) :=
  let v0s := event.v0s.filterMap (selectV0 s event)
  (bachelors.filter (bachelorPasses s)).flatMap fun bachelor =>
    (v0s.filter (pairPasses s bachelor)).map fun selected => (bachelor, selected)

/-- Pairs bachelors with the V0s of an event. The bachelors are expected to
have the bachelor role. -/
def search (s : CascadeSettings) (fitter : Fitter) (event : Event) (bachelors : List Track) :
    Output :=
  ((pairs s event bachelors).map fun (bachelor, selected) =>
    fitPair s fitter bachelor selected).foldr Output.append .empty

end Cascade

end DecaySearch
