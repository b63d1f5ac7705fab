-- The settings of the generator of toy events.

namespace DecaySearch

structure ToySettings where
  /-- Number of events to generate. -/
  numEvents : Nat
  seed : UInt64
  /-- Largest number of prompt tracks in an event. -/
  maxPromptTracks : UInt64
  /-- Probability of a displaced decay in an event. -/
  decayProbability : Float
  /-- Fraction of the displaced decays that have three prongs. -/
  threeProngFraction : Float
  /-- Range of the transverse momenta of generated particles (GeV/c). -/
  ptMin : Float
  ptMax : Float
  /-- Largest absolute pseudorapidity of generated particles. -/
  etaMax : Float
  /-- Half the width of the range of primary vertices along the beam (cm). -/
  vertexSpreadZ : Float
  /-- Mean decay length of displaced decays (cm). -/
  meanDecayLength : Float
  /-- Probability of a cascade in an event. -/
  cascadeProbability : Float
  /-- Mean decay length of the V0s of cascades (cm). -/
  v0MeanDecayLength : Float
  /-- Half the width of the smearing of prompt tracks (cm). -/
  resolution : Float
  /-- Probability of a track of bad quality. -/
  badTrackProbability : Float
  /-- Probability of an event that is rejected before the search. -/
  rejectedEventProbability : Float
  deriving DecidableEq

namespace ToySettings

def standard : ToySettings where
  numEvents := 1000
  seed := 12345
  maxPromptTracks := 20
  decayProbability := 0.3
  threeProngFraction := 0.5
  ptMin := 0.3
  ptMax := 10
  etaMax := 0.9
  vertexSpreadZ := 5
  meanDecayLength := 0.03
  cascadeProbability := 0.1
  v0MeanDecayLength := 2
  resolution := 0.005
  badTrackProbability := 0.05
  rejectedEventProbability := 0.02

end ToySettings

end DecaySearch
