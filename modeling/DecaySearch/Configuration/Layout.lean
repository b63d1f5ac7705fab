-- A configuration as it is written: its fields, their types and their values
-- when they are left out. What the values mean is checked later.
import DecaySearch.Search
import DecaySearch.Text.Record
import DecaySearch.Toy.Settings

namespace DecaySearch

variable {ν : Type} [Text.Structured ν]

/-! ## Parts -/

/-- Unknown fields of a cut table are ignored. -/
def CutTableSpec.decode (v : ν) : Option CutTableSpec := do
  let fields ← Text.fields ["pt_bins", "labels", "rows"] true v
  let ptBins ← Text.required fields "pt_bins" (Text.list Text.float)
  let labels ← Text.required fields "labels" (Text.list Text.string)
  let rows ← Text.required fields "rows" (Text.list (Text.list Text.float))
  some { ptBins, labels, rows }

def FitterSettings.standard : FitterSettings := ⟨200, 4, 0.1⟩

def FitterSettings.decode (v : ν) : Option FitterSettings := do
  let fields ← Text.fields ["max_radius", "max_dz_init", "max_dca"] false v
  let base := FitterSettings.standard
  let maxRadius ← Text.defaulted fields "max_radius" base.maxRadius Text.float
  let maxDzInit ← Text.defaulted fields "max_dz_init" base.maxDzInit Text.float
  let maxDca ← Text.defaulted fields "max_dca" base.maxDca Text.float
  some { maxRadius, maxDzInit, maxDca }

def QualityGate.standard : QualityGate := ⟨true, 70⟩

def QualityGate.decode (v : ν) : Option QualityGate := do
  let fields ← Text.fields ["enabled", "min_tpc_clusters"] false v
  let base := QualityGate.standard
  let enabled ← Text.defaulted fields "enabled" base.enabled Text.bool
  let minTpcClusters ← Text.defaulted fields "min_tpc_clusters" base.minTpcClusters Text.word16
  some { enabled, minTpcClusters }

def CascadeSettings.decode (v : ν) : Option CascadeSettings := do
  let fields ← Text.fields
    ["bachelor_tpc_refit", "bachelor_min_crossed_rows", "v0_daughter_tpc_refit",
     "v0_daughter_min_crossed_rows", "v0_daughter_pt_min", "v0_daughter_eta_max",
     "v0_cos_pointing_min", "v0_mass_window", "pt_min", "lc_mass_window"] false v
  let base := CascadeSettings.standard
  let bachelorTpcRefit ←
    Text.defaulted fields "bachelor_tpc_refit" base.bachelorTpcRefit Text.bool
  let bachelorMinCrossedRows ←
    Text.defaulted fields "bachelor_min_crossed_rows" base.bachelorMinCrossedRows Text.word16
  let daughterTpcRefit ←
    Text.defaulted fields "v0_daughter_tpc_refit" base.daughterTpcRefit Text.bool
  let daughterMinCrossedRows ←
    Text.defaulted fields "v0_daughter_min_crossed_rows" base.daughterMinCrossedRows Text.word16
  let daughterPtMin ← Text.defaulted fields "v0_daughter_pt_min" base.daughterPtMin Text.float
  let daughterEtaMax ← Text.defaulted fields "v0_daughter_eta_max" base.daughterEtaMax Text.float
  let cosPointingMin ← Text.defaulted fields "v0_cos_pointing_min" base.cosPointingMin Text.float
  let v0MassWindow ← Text.defaulted fields "v0_mass_window" base.v0MassWindow Text.float
  let ptMin ← Text.defaulted fields "pt_min" base.ptMin Text.float
  let cascadeMassWindow ←
    Text.defaulted fields "lc_mass_window" base.cascadeMassWindow Text.float
  some
    { bachelorTpcRefit, bachelorMinCrossedRows, daughterTpcRefit, daughterMinCrossedRows,
      daughterPtMin, daughterEtaMax, cosPointingMin, v0MassWindow, ptMin, cascadeMassWindow }

def Text.pair (v : ν) : Option (Float × Float) := do
  match ← Text.list Text.float v with
  | [a, b] => some (a, b)
  | _ => none

def ToySettings.decode (v : ν) : Option ToySettings := do
  let fields ← Text.fields
    ["num_events", "seed", "max_prompt_tracks", "decay_probability", "three_prong_fraction",
     "pt_range", "eta_max", "vertex_spread_z", "mean_decay_length", "cascade_probability",
     "v0_mean_decay_length", "resolution", "bad_track_probability",
     "rejected_event_probability"] false v
  let base := ToySettings.standard
  let numEvents ← Text.defaulted fields "num_events" base.numEvents (Text.natBelow (Nat.pow 2 64))
  let seed ← Text.defaulted fields "seed" base.seed Text.word64
  let maxPromptTracks ←
    Text.defaulted fields "max_prompt_tracks" base.maxPromptTracks Text.word64
  let decayProbability ←
    Text.defaulted fields "decay_probability" base.decayProbability Text.float
  let threeProngFraction ←
    Text.defaulted fields "three_prong_fraction" base.threeProngFraction Text.float
  let (ptMin, ptMax) ← Text.defaulted fields "pt_range" (base.ptMin, base.ptMax) Text.pair
  let etaMax ← Text.defaulted fields "eta_max" base.etaMax Text.float
  let vertexSpreadZ ← Text.defaulted fields "vertex_spread_z" base.vertexSpreadZ Text.float
  let meanDecayLength ← Text.defaulted fields "mean_decay_length" base.meanDecayLength Text.float
  let cascadeProbability ←
    Text.defaulted fields "cascade_probability" base.cascadeProbability Text.float
  let v0MeanDecayLength ←
    Text.defaulted fields "v0_mean_decay_length" base.v0MeanDecayLength Text.float
  let resolution ← Text.defaulted fields "resolution" base.resolution Text.float
  let badTrackProbability ←
    Text.defaulted fields "bad_track_probability" base.badTrackProbability Text.float
  let rejectedEventProbability ←
    Text.defaulted fields "rejected_event_probability" base.rejectedEventProbability Text.float
  some
    { numEvents, seed, maxPromptTracks, decayProbability, threeProngFraction, ptMin, ptMax,
      etaMax, vertexSpreadZ, meanDecayLength, cascadeProbability, v0MeanDecayLength, resolution,
      badTrackProbability, rejectedEventProbability }

/-! ## Roles and hypotheses -/

structure RoleSpec where
  ptMin : Float
  etaMax : Float
  dca : CutTableSpec

def RoleSpec.decode (v : ν) : Option RoleSpec := do
  let fields ← Text.fields ["pt_min", "eta_max", "dca"] false v
  let ptMin ← Text.defaulted fields "pt_min" 0 Text.float
  let etaMax ← Text.defaulted fields "eta_max" 0.8 Text.float
  let dca ← Text.required fields "dca" CutTableSpec.decode
  some { ptMin, etaMax, dca }

structure TrackSelectionSpec where
  quality : QualityGate
  roles : PerRole RoleSpec

def TrackSelectionSpec.decode (v : ν) : Option TrackSelectionSpec := do
  let fields ← Text.fields ["quality", "two_prong", "three_prong", "bachelor"] false v
  let quality ← Text.defaulted fields "quality" QualityGate.standard QualityGate.decode
  let twoProng ← Text.required fields "two_prong" RoleSpec.decode
  let threeProng ← Text.required fields "three_prong" RoleSpec.decode
  let bachelor ← Text.required fields "bachelor" RoleSpec.decode
  some { quality, roles := { twoProng, threeProng, bachelor } }

structure HypothesisSpec where
  decay : Decay
  enabled : Bool
  cuts : CutTableSpec

/-- A decay is given by its exact name. -/
def Decay.decode (v : ν) : Option Decay := (Text.string v).bind Decay.ofName?

def HypothesisSpec.decode (v : ν) : Option HypothesisSpec := do
  let fields ← Text.fields ["decay", "enabled", "cuts"] false v
  let decay ← Text.required fields "decay" Decay.decode
  let enabled ← Text.defaulted fields "enabled" true Text.bool
  let cuts ← Text.required fields "cuts" CutTableSpec.decode
  some { decay, enabled, cuts }

/-! ## The whole -/

structure ConfigurationSpec where
  search : SearchSettings
  fitter : FitterSettings
  tracks : TrackSelectionSpec
  /-- The hypotheses in any order. -/
  hypotheses : List HypothesisSpec
  cascades : Option CascadeSettings
  toy : ToySettings

def ConfigurationSpec.decode (v : ν) : Option ConfigurationSpec := do
  let fields ← Text.fields
    ["debug", "exhaustive_debug", "do_three_prong", "pt_tolerance", "vertexing",
     "track_selection", "hypotheses", "cascades", "toy"] false v
  let debug ← Text.defaulted fields "debug" false Text.bool
  let exhaustiveDebug ← Text.defaulted fields "exhaustive_debug" false Text.bool
  let doThreeProng ← Text.defaulted fields "do_three_prong" true Text.bool
  let ptTolerance ← Text.defaulted fields "pt_tolerance" 0.1 Text.float
  let fitter ← Text.defaulted fields "vertexing" FitterSettings.standard FitterSettings.decode
  let tracks ← Text.required fields "track_selection" TrackSelectionSpec.decode
  let hypotheses ← Text.required fields "hypotheses" (Text.list HypothesisSpec.decode)
  let cascades ← Text.defaulted fields "cascades" none (Text.optional CascadeSettings.decode)
  let toy ← Text.defaulted fields "toy" ToySettings.standard ToySettings.decode
  some
    { search := { ptTolerance, debug, doThreeProng, exhaustiveDebug }
      fitter, tracks, hypotheses, cascades, toy }

end DecaySearch
