-- The configuration of a run. A text is decoded first and then checked as a
-- whole, so that nothing in a run can be set to a value that makes no sense.
import DecaySearch.Configuration.Layout
import DecaySearch.Text.Yaml

namespace DecaySearch

/-! ## Errors -/

inductive ConfigurationError
  /-- The text is not a configuration at all. -/
  | malformed
  | tolerance (value : Float)
  | radius
  | trackDistance
  | toyPtRange
  | toyLengths
  | toyV0Length
  | v0MassWindow (value : Float)
  | v0CosPointing (value : Float)
  | daughterCuts
  | cascadeCuts
  | roleCuts (role : Role) (defect : CutTableError)
  | decayTwice (decay : Decay)
  | decayCuts (decay : Decay) (defect : CutTableError)
  | nothingEnabled
  /-- The checks let something through that they should not. -/
  | fault (cause : Fault)
  deriving DecidableEq

namespace ConfigurationError

/-- The texts of an error, from the outermost context inwards. -/
def chain : ConfigurationError → List String
  | .malformed => ["Malformed configuration"]
  | .tolerance value =>
    ["The pT tolerance must be a non-negative number, got " ++ Number.positional value]
  | .radius => ["The maximal vertex radius must be positive"]
  | .trackDistance => ["The maximal track-vertex distance must be positive"]
  | .toyPtRange => ["The toy pT range must be a positive, non-empty interval"]
  | .toyLengths => ["Toy vertex spread, resolution and decay length must be non-negative"]
  | .toyV0Length => ["The toy V0 decay length must be non-negative"]
  | .v0MassWindow value =>
    ["The V0 mass window must be a non-negative number, got " ++ Number.positional value]
  | .v0CosPointing value =>
    ["The minimal V0 pointing angle cosine must lie in [-1, 1], got " ++ Number.positional value]
  | .daughterCuts => ["The V0 daughter cuts must be finite numbers"]
  | .cascadeCuts => ["The cascade candidate cuts must be finite numbers"]
  | .roleCuts role defect =>
    [s!"Invalid impact parameter cuts for the {role.name} role", defect.message]
  | .decayTwice decay => [s!"Decay {decay.name} is configured twice"]
  | .decayCuts decay defect => [s!"Invalid cuts for decay {decay.name}", defect.message]
  | .nothingEnabled => ["At least one decay hypothesis must be enabled"]
  | .fault cause => [cause.message]

def message (e : ConfigurationError) : String := ": ".intercalate e.chain

end ConfigurationError

/-! ## Checks -/

/-- A configuration that has passed all checks. -/
structure Configuration where
  search : SearchSettings
  fitter : FitterSettings
  selector : TrackSelector
  hypotheses : HypothesisSet
  /-- Cascades are only looked for if they are configured. -/
  cascades : Option CascadeSettings
  toy : ToySettings
  deriving DecidableEq

namespace Configuration

/-- Refuses a configuration unless a condition holds. -/
def ensure (condition : Bool) (e : ConfigurationError) : Except ConfigurationError Unit :=
  if condition then .ok () else .error e

def checkFitter (f : FitterSettings) : Except ConfigurationError Unit := do
  ensure (0 < f.maxRadius) .radius
  ensure (0 < f.maxDca) .trackDistance

def checkToy (t : ToySettings) : Except ConfigurationError Unit := do
  ensure (0 < t.ptMin && t.ptMin < t.ptMax) .toyPtRange
  ensure (0 ≤ t.vertexSpreadZ && 0 ≤ t.resolution && 0 ≤ t.meanDecayLength) .toyLengths
  ensure (0 ≤ t.v0MeanDecayLength) .toyV0Length

def checkCascades (c : CascadeSettings) : Except ConfigurationError Unit := do
  ensure (c.v0MassWindow.isFinite && 0 ≤ c.v0MassWindow) (.v0MassWindow c.v0MassWindow)
  ensure (-1 ≤ c.cosPointingMin && c.cosPointingMin ≤ 1) (.v0CosPointing c.cosPointingMin)
  ensure (c.daughterPtMin.isFinite && c.daughterEtaMax.isFinite) .daughterCuts
  ensure (c.ptMin.isFinite && c.cascadeMassWindow.isFinite) .cascadeCuts

def readRole (role : Role) (spec : RoleSpec) : Except ConfigurationError RoleCuts :=
  match CutTable.ofSpec spec.dca RoleCuts.required with
  | .error defect => .error (.roleCuts role defect)
  | .ok dca => .ok ⟨spec.ptMin, spec.etaMax, dca⟩

def readSelector (spec : TrackSelectionSpec) : Except ConfigurationError TrackSelector := do
  let twoProng ← readRole .twoProngLeg spec.roles.twoProng
  let threeProng ← readRole .threeProngLeg spec.roles.threeProng
  let bachelor ← readRole .bachelorLeg spec.roles.bachelor
  pure ⟨⟨twoProng, threeProng, bachelor⟩, spec.quality⟩

def readHypothesis (spec : HypothesisSpec) : Except ConfigurationError DecayHypothesis :=
  match CutTable.ofSpec spec.cuts spec.decay.arity.requiredCuts with
  | .error defect => .error (.decayCuts spec.decay defect)
  | .ok cuts =>
    match DecayHypothesis.make spec.decay spec.enabled cuts with
    | .error defect => .error (.decayCuts spec.decay defect)
    | .ok h => .ok h

/-- Builds the listed hypotheses in their order. No decay may be listed twice. -/
def readHypotheses (seen : List Decay) :
    List HypothesisSpec → Except ConfigurationError (List DecayHypothesis)
  | [] => .ok []
  | spec :: rest => do
    ensure (!seen.contains spec.decay) (.decayTwice spec.decay)
    let h ← readHypothesis spec
    let others ← readHypotheses (spec.decay :: seen) rest
    pure (h :: others)

/-- The table of a decay that is not configured. It is never read. -/
def unusedCuts (arity : Arity) : CutTable :=
  ⟨[0, 1], arity.requiredCuts, [arity.requiredCuts.map fun _ => 0]⟩

/-- The hypothesis of a decay: the listed one, or a disabled one. -/
def hypothesisOf (listed : List DecayHypothesis) (decay : Decay) : DecayHypothesis :=
  (listed.find? (·.decay = decay)).getD ⟨decay, false, unusedCuts decay.arity⟩

/-- Puts the hypotheses of an arity in catalogue order. -/
def readGroup (listed : List DecayHypothesis) (arity : Arity) :
    Except ConfigurationError HypothesisGroup :=
  match HypothesisGroup.make arity ((Decay.catalogue arity).map (hypothesisOf listed)) with
  | .error fault => .error (.fault fault)
  | .ok group => .ok group

/-- Checks a configuration. The first thing that is wrong is reported. -/
def ofSpec (spec : ConfigurationSpec) : Except ConfigurationError Configuration := do
  let tolerance := spec.search.ptTolerance
  ensure (tolerance.isFinite && 0 ≤ tolerance) (.tolerance tolerance)
  checkFitter spec.fitter
  checkToy spec.toy
  match spec.cascades with
  | none => pure ()
  | some settings => checkCascades settings
  let selector ← readSelector spec.tracks
  let listed ← readHypotheses [] spec.hypotheses
  ensure (listed.any (·.enabled)) .nothingEnabled
  let twoProng ← readGroup listed .twoProng
  let threeProng ← readGroup listed .threeProng
  pure
    { search := spec.search
      fitter := spec.fitter
      selector
      hypotheses := { twoProng, threeProng }
      cascades := spec.cascades
      toy := spec.toy }

def ofText (text : String) : Except ConfigurationError Configuration :=
  match (Text.Yaml.ofText? text).bind ConfigurationSpec.decode with
  | none => .error .malformed
  | some spec => ofSpec spec

/-! ## Use -/

def withDebug (c : Configuration) (debug : Bool) : Configuration :=
  { c with search := { c.search with debug := c.search.debug || debug } }

/-- Replaces settings of the generator of toy events. -/
def withToy (c : Configuration) (numEvents : Option Nat) (seed : Option UInt64) : Configuration :=
  { c with toy :=
      { c.toy with
        numEvents := numEvents.getD c.toy.numEvents
        seed := seed.getD c.toy.seed } }

def searchWith (c : Configuration) (fitter : Fitter) : Except Fault Search :=
  Search.make c.selector c.hypotheses fitter c.search c.cascades

def makeSearch (c : Configuration) : Except Fault Search :=
  c.searchWith (StraightLine.fit c.fitter)

end Configuration

end DecaySearch
