-- The display of a configuration before a run.
import DecaySearch.Configuration

namespace DecaySearch.Configuration

/-- A name in a column of fixed width, and what it stands for. -/
def echoLine (name content : String) : String := Number.padRight 17 name ++ ": " ++ content

def echoRole (role : Role) (cuts : RoleCuts) : String :=
  echoLine role.name
    (s!"pT > {Number.positional cuts.ptMin}, |eta| < {Number.positional cuts.etaMax}, "
      ++ s!"{cuts.dca.bins} DCA bins")

def echoHypothesis (h : DecayHypothesis) (bit : Nat) : String :=
  let state := if h.enabled then "enabled" else "disabled"
  echoLine h.decay.name s!"bit {bit}, {state}, {h.cuts.bins} pT bins"

def echoCascades : Option CascadeSettings → String
  | none => echoLine "CASCADES" "disabled"
  | some c =>
    echoLine "CASCADES"
      (s!"K0S window {Number.positional c.v0MassWindow}, "
        ++ s!"cos(pointing) > {Number.positional c.cosPointingMin}, "
        ++ s!"Lc window {Number.positional c.cascadeMassWindow}, "
        ++ s!"pT > {Number.positional c.ptMin}")

def echo (c : Configuration) : List String :=
  [echoLine "DEBUG" (toString c.search.debug),
   echoLine "EXHAUSTIVE DEBUG" (toString c.search.exhaustiveDebug),
   echoLine "3-PRONG" (toString c.search.doThreeProng),
   echoLine "PT TOLERANCE" (Number.positional c.search.ptTolerance),
   echoLine "MAX RADIUS" (Number.positional c.fitter.maxRadius),
   echoLine "MAX DZ INIT" (Number.positional c.fitter.maxDzInit),
   echoLine "MAX DCA" (Number.positional c.fitter.maxDca)]
  ++ Role.all.map (fun role => echoRole role (c.selector.roles.get role))
  ++ c.hypotheses.twoProng.hypotheses.zipIdx.map (fun (h, bit) => echoHypothesis h bit)
  ++ c.hypotheses.threeProng.hypotheses.zipIdx.map (fun (h, bit) => echoHypothesis h bit)
  ++ [echoCascades c.cascades]

end DecaySearch.Configuration
