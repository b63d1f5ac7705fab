-- The selection of single tracks. A track is tagged with the roles that it may
-- take in a decay, and each stage that rejects it for a role is recorded.
import DecaySearch.CutTable
import DecaySearch.Event
import DecaySearch.SelectionMode

namespace DecaySearch

/-! ## Roles -/

/-- The place that a track may take in a decay. -/
inductive Role
  | twoProngLeg
  | threeProngLeg
  | bachelorLeg
  deriving DecidableEq

namespace Role

def all : List Role := [.twoProngLeg, .threeProngLeg, .bachelorLeg]

def name : Role → String
  | .twoProngLeg => "2-prong"
  | .threeProngLeg => "3-prong"
  | .bachelorLeg => "bachelor"

end Role

structure PerRole (α : Type) where
  twoProng : α
  threeProng : α
  bachelor : α
  deriving DecidableEq

namespace PerRole

variable {α β γ : Type}

def get (p : PerRole α) : Role → α
  | .twoProngLeg => p.twoProng
  | .threeProngLeg => p.threeProng
  | .bachelorLeg => p.bachelor

def constant (a : α) : PerRole α := ⟨a, a, a⟩

def map (f : α → β) (p : PerRole α) : PerRole β := ⟨f p.twoProng, f p.threeProng, f p.bachelor⟩

def zipWith (f : α → β → γ) (p : PerRole α) (q : PerRole β) : PerRole γ :=
  ⟨f p.twoProng q.twoProng, f p.threeProng q.threeProng, f p.bachelor q.bachelor⟩

/-- Applies a function that may fail to the roles in their order. -/
def mapM {m : Type → Type} [Monad m] (f : α → m β) (p : PerRole α) : m (PerRole β) := do
  let twoProng ← f p.twoProng
  let threeProng ← f p.threeProng
  let bachelor ← f p.bachelor
  pure ⟨twoProng, threeProng, bachelor⟩

def toList (p : PerRole α) : List α := Role.all.map p.get

def modify (p : PerRole α) (role : Role) (f : α → α) : PerRole α :=
  match role with
  | .twoProngLeg => { p with twoProng := f p.twoProng }
  | .threeProngLeg => { p with threeProng := f p.threeProng }
  | .bachelorLeg => { p with bachelor := f p.bachelor }

theorem get_map (f : α → β) (p : PerRole α) (r : Role) : (p.map f).get r = f (p.get r) := by
  cases r <;> rfl

theorem get_zipWith (f : α → β → γ) (p : PerRole α) (q : PerRole β) (r : Role) :
    (zipWith f p q).get r = f (p.get r) (q.get r) := by
  cases r <;> rfl

theorem get_constant (a : α) (r : Role) : (constant a).get r = a := by cases r <;> rfl

theorem ext_get {p q : PerRole α} (h : ∀ role, p.get role = q.get role) : p = q := by
  rcases p with ⟨p2, p3, pb⟩
  rcases q with ⟨q2, q3, qb⟩
  rw [show p2 = q2 from h .twoProngLeg, show p3 = q3 from h .threeProngLeg,
    show pb = qb from h .bachelorLeg]

end PerRole

abbrev RoleMask := PerRole Bool

namespace RoleMask

def all : RoleMask := .constant true

def none : RoleMask := .constant false

def contains (m : RoleMask) (role : Role) : Bool := m.get role

def isEmpty (m : RoleMask) : Bool := !(m.twoProng || m.threeProng || m.bachelor)

/-- Takes a role out. The selection does this where it rejects a track for the role, so it
goes through `RoleVerdict.reject`. -/
def remove (m : RoleMask) (role : Role) : RoleMask := m.modify role fun _ => false

/-- The mask as a number, with the two-prong role in the lowest bit. -/
def bits (m : RoleMask) : Nat :=
  m.twoProng.toNat + 2 * m.threeProng.toNat + 4 * m.bachelor.toNat

/-- The mask as binary digits, with the bachelor first. -/
def text (m : RoleMask) : String :=
  String.ofList ([m.bachelor, m.threeProng, m.twoProng].map fun b => if b then '1' else '0')

end RoleMask

/-! ## Stages -/

/-- The stages of the selection of single tracks, in their order. -/
inductive TrackStage
  /-- Transverse momentum is large enough. -/
  | pt
  /-- Pseudorapidity is not too far from zero. -/
  | eta
  /-- Reconstruction is good enough. All roles share this stage. -/
  | quality
  /-- Transverse impact parameter lies in the window of its bin. -/
  | dca
  deriving DecidableEq

namespace TrackStage

def all : List TrackStage := [.pt, .eta, .quality, .dca]

def name : TrackStage → String
  | .pt => "pT"
  | .eta => "eta"
  | .quality => "quality"
  | .dca => "dca"

end TrackStage

structure PerStage (α : Type) where
  pt : α
  eta : α
  quality : α
  dca : α
  deriving DecidableEq

namespace PerStage

variable {α β γ : Type}

def get (p : PerStage α) : TrackStage → α
  | .pt => p.pt
  | .eta => p.eta
  | .quality => p.quality
  | .dca => p.dca

def constant (a : α) : PerStage α := ⟨a, a, a, a⟩

def map (f : α → β) (p : PerStage α) : PerStage β := ⟨f p.pt, f p.eta, f p.quality, f p.dca⟩

def zipWith (f : α → β → γ) (p : PerStage α) (q : PerStage β) : PerStage γ :=
  ⟨f p.pt q.pt, f p.eta q.eta, f p.quality q.quality, f p.dca q.dca⟩

def toList (p : PerStage α) : List α := TrackStage.all.map p.get

def set (p : PerStage α) (stage : TrackStage) (a : α) : PerStage α :=
  match stage with
  | .pt => { p with pt := a }
  | .eta => { p with eta := a }
  | .quality => { p with quality := a }
  | .dca => { p with dca := a }

theorem get_zipWith (f : α → β → γ) (p : PerStage α) (q : PerStage β) (s : TrackStage) :
    (zipWith f p q).get s = f (p.get s) (q.get s) := by
  cases s <;> rfl

theorem get_constant (a : α) (s : TrackStage) : (constant a).get s = a := by cases s <;> rfl

theorem ext_get {p q : PerStage α} (h : ∀ stage, p.get stage = q.get stage) : p = q := by
  rcases p with ⟨ppt, peta, pquality, pdca⟩
  rcases q with ⟨qpt, qeta, qquality, qdca⟩
  rw [show ppt = qpt from h .pt, show peta = qeta from h .eta,
    show pquality = qquality from h .quality, show pdca = qdca from h .dca]

end PerStage

/-! ## Cuts -/

structure RoleCuts where
  /-- Smallest transverse momentum (GeV/c). -/
  ptMin : Float
  /-- Largest absolute pseudorapidity. -/
  etaMax : Float
  /-- Windows of the absolute transverse impact parameter (cm). -/
  dca : CutTable
  deriving DecidableEq

namespace RoleCuts

/-- The columns that the table of a role must have. -/
def required : List CutVariable := [.dcaXYMin, .dcaXYMax]

/-- Truth that the impact parameter of a track lies in the window of its bin. A
track without a bin fails. -/
def dcaPasses (cuts : RoleCuts) (track : Track) : Except Fault Bool :=
  match cuts.dca.findBin track.pt with
  | none => .ok false
  | some bin => do
    let least ← cuts.dca.get bin .dcaXYMin
    let largest ← cuts.dca.get bin .dcaXYMax
    let dca := track.dcaXY.abs
    pure (least ≤ dca && dca ≤ largest)

end RoleCuts

/-- The quality that all roles ask for. -/
structure QualityGate where
  enabled : Bool
  minTpcClusters : UInt16
  deriving DecidableEq

namespace QualityGate

/-- Asks for enough clusters, a refit in the ITS and a hit close to the beam,
unless the gate is disabled. -/
def passes (gate : QualityGate) (q : TrackQuality) : Bool :=
  !gate.enabled || (gate.minTpcClusters ≤ q.tpcClusters && q.itsRefit && q.hasInnerHit)

end QualityGate

/-! ## Verdicts -/

structure RoleVerdict where
  granted : Bool
  /-- The stages that rejected the track. -/
  rejected : PerStage Bool
  deriving DecidableEq

namespace RoleVerdict

def start : RoleVerdict := ⟨true, .constant false⟩

def reject (v : RoleVerdict) (stage : TrackStage) : RoleVerdict :=
  ⟨false, v.rejected.set stage true⟩

def apply (v : RoleVerdict) (stage : TrackStage) (passes : Bool) : RoleVerdict :=
  if passes then v else v.reject stage

end RoleVerdict

abbrev TrackVerdict := PerRole RoleVerdict

namespace TrackVerdict

def roles (v : TrackVerdict) : RoleMask := v.map (·.granted)

/-- A rejection takes the role out of the mask. -/
theorem roles_reject (v : TrackVerdict) (role : Role) (stage : TrackStage) :
    TrackVerdict.roles (v.modify role (·.reject stage)) = v.roles.remove role := by
  cases role <;> rfl

end TrackVerdict

/-! ## Selection -/

/-- Tags tracks with the roles that they may take. -/
structure TrackSelector where
  roles : PerRole RoleCuts
  quality : QualityGate
  deriving DecidableEq

namespace TrackSelector

/-- What the stages of one role say about a track, each on its own. -/
structure RoleChecks where
  pt : Bool
  eta : Bool
  dca : Bool
  deriving DecidableEq

def checks (cuts : RoleCuts) (track : Track) : Except Fault RoleChecks := do
  let dca ← cuts.dcaPasses track
  pure { pt := cuts.ptMin ≤ track.pt, eta := track.eta.abs ≤ cuts.etaMax, dca }

/-- The stages that look at the momentum. -/
def judgeKinematics (mode : SelectionMode) (checks : RoleChecks) : RoleVerdict :=
  let v := RoleVerdict.start.apply .pt checks.pt
  if mode.evaluates v.granted then v.apply .eta checks.eta else v

/-- The quality stage, which is evaluated once for all roles: as long as any
role is left, and then for every role. -/
def judgeQuality (mode : SelectionMode) (quality : Bool) (v : TrackVerdict) : TrackVerdict :=
  if mode.evaluates (!v.roles.isEmpty) then v.map (·.apply .quality quality) else v

/-- The stage that looks at the impact parameter. -/
def judgeDca (mode : SelectionMode) (checks : RoleChecks) (v : RoleVerdict) : RoleVerdict :=
  if mode.evaluates v.granted then v.apply .dca checks.dca else v

/-- The verdict that follows from what the stages say. -/
def judge (mode : SelectionMode) (quality : Bool) (checks : PerRole RoleChecks) : TrackVerdict :=
  checks.zipWith (judgeDca mode) (judgeQuality mode quality (checks.map (judgeKinematics mode)))

/-- Runs the selection on a track and records which stages rejected it. -/
def inspect (s : TrackSelector) (track : Track) (mode : SelectionMode) :
    Except Fault TrackVerdict := do
  let checks ← s.roles.mapM fun cuts => checks cuts track
  pure (judge mode (s.quality.passes track.quality) checks)

def classify (s : TrackSelector) (track : Track) : Except Fault RoleMask := do
  let verdict ← s.inspect track .production
  pure verdict.roles

end TrackSelector

end DecaySearch
