-- The catalogue of decay channels: how many daughters each one has, which
-- charges they carry and which masses they may have.
import DecaySearch.Sign
import DecaySearch.CutVariable

namespace DecaySearch

/-! ## Masses -/

namespace Mass

/-- Charged pion mass (GeV/c²). -/
def pion : Float := 0.13957039

/-- Charged kaon mass (GeV/c²). -/
def kaon : Float := 0.493677

/-- Proton mass (GeV/c²). -/
def proton : Float := 0.93827208816

/-- Electron mass (GeV/c²). -/
def electron : Float := 0.00051099895

/-- Muon mass (GeV/c²). -/
def muon : Float := 0.1056583755

/-- Mass of the short-lived neutral kaon K⁰S (GeV/c²). -/
def k0s : Float := 0.497611

/-- Mass of the Λc⁺ baryon (GeV/c²). -/
def lambdaC : Float := 2.28646

end Mass

/-! ## Numbers of daughters -/

inductive Arity
  | twoProng
  | threeProng
  deriving DecidableEq

namespace Arity

def name : Arity → String
  | .twoProng => "TwoProng"
  | .threeProng => "ThreeProng"

def prongs : Arity → Nat
  | .twoProng => 2
  | .threeProng => 3

def ofProngs? : Nat → Option Arity
  | 2 => some .twoProng
  | 3 => some .threeProng
  | _ => none

/-- The charges of the daughters, in enumeration order. -/
def chargePattern : Arity → List Sign
  | .twoProng => [.positive, .negative]
  | .threeProng => [.positive, .negative, .positive]

/-- Truth that charges follow the pattern of an arity. Three-prong decays also
take the opposite pattern. -/
def acceptsCharges (arity : Arity) (charges : List Sign) : Bool :=
  charges = arity.chargePattern ||
    (arity = .threeProng && charges = arity.chargePattern.map Sign.opposite)

/-- The columns that a cut table for an arity must have. -/
def requiredCuts : Arity → List CutVariable
  | .twoProng => [.massMin, .massMax, .impactParameterProduct, .cosPointingAngle]
  | .threeProng => [.massMin, .massMax, .cosPointingAngle, .decayLength]

end Arity

/-! ## Channels -/

inductive Decay
  /-- D⁰ → π⁺ K⁻ -/
  | d0ToPiK
  /-- J/ψ → e⁺ e⁻ -/
  | jpsiToEE
  /-- J/ψ → μ⁺ μ⁻ -/
  | jpsiToMuMu
  /-- D⁺ → π⁺ K⁻ π⁺ -/
  | dPlusToPiKPi
  /-- Λc⁺ → p K⁻ π⁺ -/
  | lcToPKPi
  /-- Ds⁺ → K⁺ K⁻ π⁺ -/
  | dsToPiKK
  /-- Ξc⁺ → p K⁻ π⁺ -/
  | xicToPKPi
  deriving DecidableEq

namespace Decay

def name : Decay → String
  | .d0ToPiK => "D0ToPiK"
  | .jpsiToEE => "JpsiToEE"
  | .jpsiToMuMu => "JpsiToMuMu"
  | .dPlusToPiKPi => "DPlusToPiKPi"
  | .lcToPKPi => "LcToPKPi"
  | .dsToPiKK => "DsToPiKK"
  | .xicToPKPi => "XicToPKPi"

def arity : Decay → Arity
  | .d0ToPiK | .jpsiToEE | .jpsiToMuMu => .twoProng
  | .dPlusToPiKPi | .lcToPKPi | .dsToPiKK | .xicToPKPi => .threeProng

/-- The channels of an arity, in the order of their bits. -/
def catalogue : Arity → List Decay
  | .twoProng => [.d0ToPiK, .jpsiToEE, .jpsiToMuMu]
  | .threeProng => [.dPlusToPiKPi, .lcToPKPi, .dsToPiKK, .xicToPKPi]

def all : List Decay := catalogue .twoProng ++ catalogue .threeProng

/-- Finds the channel with a name. Names must match exactly. -/
def ofName? (name : String) : Option Decay := all.find? (·.name = name)

/-- The position of a channel among those of its arity, which is the number of
its bit in a mask. -/
def bit (decay : Decay) : Nat := (catalogue decay.arity).idxOf decay

/-- The two ways to give masses to the daughters, in enumeration order. The
second one swaps two daughters whose charge does not tell them apart. A
symmetric channel repeats its only way, so that a match counts for both. -/
def massAssignments : Decay → List Float × List Float
  | .d0ToPiK => ([Mass.pion, Mass.kaon], [Mass.kaon, Mass.pion])
  | .jpsiToEE => ([Mass.electron, Mass.electron], [Mass.electron, Mass.electron])
  | .jpsiToMuMu => ([Mass.muon, Mass.muon], [Mass.muon, Mass.muon])
  | .dPlusToPiKPi =>
    ([Mass.pion, Mass.kaon, Mass.pion], [Mass.pion, Mass.kaon, Mass.pion])
  | .lcToPKPi | .xicToPKPi =>
    ([Mass.proton, Mass.kaon, Mass.pion], [Mass.pion, Mass.kaon, Mass.proton])
  | .dsToPiKK =>
    ([Mass.kaon, Mass.kaon, Mass.pion], [Mass.pion, Mass.kaon, Mass.kaon])

theorem mem_catalogue (d : Decay) : d ∈ catalogue d.arity := by cases d <;> decide

theorem catalogue_bit (d : Decay) : (catalogue d.arity)[d.bit]? = some d := by
  cases d <;> decide

theorem arity_of_mem_catalogue {a : Arity} {d : Decay} (h : d ∈ catalogue a) : d.arity = a := by
  have every : ∀ d ∈ catalogue a, d.arity = a := by cases a <;> decide
  exact every d h

/-- Each way gives a mass to every daughter. -/
theorem length_massAssignments (d : Decay) :
    d.massAssignments.1.length = d.arity.prongs ∧
      d.massAssignments.2.length = d.arity.prongs := by
  cases d <;> decide

end Decay

end DecaySearch
