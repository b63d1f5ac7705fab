-- The selection of single tracks, without its faults: which roles a track gets, in
-- either mode, and which stages are recorded against it.
import DecaySearch.Proofs.WellFormed

namespace DecaySearch

/-! ## What the stages say -/

/-- Truth that the impact parameter of a track lies in the window of its bin. -/
def RoleCuts.admitsDca (c : RoleCuts) (t : Track) : Bool :=
  match c.dca.findBin t.pt with
  | none => false
  | some bin =>
    c.dca.threshold bin.index .dcaXYMin ≤ t.dcaXY.abs &&
      t.dcaXY.abs ≤ c.dca.threshold bin.index .dcaXYMax

theorem RoleCuts.dcaPasses_eq {c : RoleCuts} (hc : c.WellFormed) (t : Track) :
    c.dcaPasses t = .ok (c.admitsDca t) := by
  unfold dcaPasses admitsDca
  cases hbin : c.dca.findBin t.pt with
  | none => rfl
  | some bin =>
    have hin := (CutTable.findBin_eq_some_iff hc.table t.pt bin).mp hbin
    have hget : ∀ v ∈ RoleCuts.required, c.dca.get bin v = .ok (c.dca.threshold bin.index v) :=
      fun v hv => CutTable.get_of_inBin hc.table (hc.columns v hv) hin
    simp only [hget .dcaXYMin (by decide), hget .dcaXYMax (by decide)]
    rfl

namespace TrackSelector

/-- What the stages of one role say about a track. -/
def checksOf (c : RoleCuts) (t : Track) : RoleChecks where
  pt := c.ptMin ≤ t.pt
  eta := t.eta.abs ≤ c.etaMax
  dca := c.admitsDca t

/-- Truth that a stage lets a track through. All roles share the quality stage. -/
def RoleChecks.passes (c : RoleChecks) (quality : Bool) : TrackStage → Bool
  | .pt => c.pt
  | .eta => c.eta
  | .quality => quality
  | .dca => c.dca

/-- Truth that every stage lets a track through. -/
def RoleChecks.passesAll (c : RoleChecks) (quality : Bool) : Bool :=
  TrackStage.all.all (c.passes quality)

theorem checks_eq {c : RoleCuts} (hc : c.WellFormed) (t : Track) :
    checks c t = .ok (checksOf c t) := by
  unfold checks
  rw [RoleCuts.dcaPasses_eq hc]
  rfl

/-! ## Verdicts -/

/-- Truth that a role is left before the quality stage. -/
def anyLeft (mode : SelectionMode) (checks : PerRole RoleChecks) : Bool :=
  !(TrackVerdict.roles (checks.map (judgeKinematics mode))).isEmpty

/-- The verdict on one role, once it is known whether any role is left. -/
def judgeRole (mode : SelectionMode) (left quality : Bool) (c : RoleChecks) : RoleVerdict :=
  judgeDca mode c
    (if mode.evaluates left then (judgeKinematics mode c).apply .quality quality
      else judgeKinematics mode c)

/-- The roles are judged one by one, but for the question whether any is left. -/
theorem get_judge (mode : SelectionMode) (quality : Bool) (checks : PerRole RoleChecks)
    (role : Role) :
    (judge mode quality checks).get role =
      judgeRole mode (anyLeft mode checks) quality (checks.get role) := by
  unfold judge judgeQuality judgeRole anyLeft
  rw [PerRole.get_zipWith]
  split
  · rw [PerRole.get_map, PerRole.get_map]
  · rw [PerRole.get_map]

theorem granted_judgeKinematics (mode : SelectionMode) (c : RoleChecks) :
    (judgeKinematics mode c).granted = (c.pt && c.eta) := by
  rcases c with ⟨pt, eta, dca⟩
  cases mode <;> cases pt <;> cases eta <;> rfl

theorem anyLeft_of_kinematics (mode : SelectionMode) (checks : PerRole RoleChecks) (role : Role)
    (h : ((checks.get role).pt && (checks.get role).eta) = true) :
    anyLeft mode checks = true := by
  rw [← granted_judgeKinematics mode] at h
  unfold anyLeft TrackVerdict.roles RoleMask.isEmpty PerRole.map
  cases role
  · simp [show (judgeKinematics mode checks.twoProng).granted = true from h]
  · simp [show (judgeKinematics mode checks.threeProng).granted = true from h]
  · simp [show (judgeKinematics mode checks.bachelor).granted = true from h]

/-- No stage gives a lost role back. -/
theorem granted_apply_of_lost {v : RoleVerdict} (h : v.granted = false) (stage : TrackStage)
    (passes : Bool) : (v.apply stage passes).granted = false := by
  unfold RoleVerdict.apply
  split
  · exact h
  · rfl

theorem granted_judgeRole (mode : SelectionMode) (left quality : Bool) (c : RoleChecks)
    (hleft : (c.pt && c.eta) = true → left = true) :
    (judgeRole mode left quality c).granted = c.passesAll quality := by
  rcases c with ⟨pt, eta, dca⟩
  cases hkinematics : pt && eta with
  | true =>
    rw [Bool.and_eq_true] at hkinematics
    obtain ⟨rfl, rfl⟩ := hkinematics
    rw [hleft rfl]
    cases mode <;> cases quality <;> cases dca <;> rfl
  | false =>
    -- The role is lost before the quality stage, whether that is reached or not.
    have hlost : RoleChecks.passesAll ⟨pt, eta, dca⟩ quality = false := by
      cases pt
      · rfl
      · cases eta
        · cases quality <;> rfl
        · cases hkinematics
    rw [hlost]
    have hgranted := granted_judgeKinematics mode ⟨pt, eta, dca⟩
    rw [hkinematics] at hgranted
    have hquality := granted_apply_of_lost hgranted .quality quality
    unfold judgeRole judgeDca
    cases mode.evaluates left
    · rw [if_neg Bool.false_ne_true]
      split
      · exact granted_apply_of_lost hgranted _ _
      · exact hgranted
    · rw [if_pos rfl]
      split
      · exact granted_apply_of_lost hquality _ _
      · exact hquality

/-- A stage is only recorded if it rejects the track. -/
theorem not_passes_of_rejected_judgeRole (mode : SelectionMode) (left quality : Bool)
    (c : RoleChecks) (stage : TrackStage)
    (h : (judgeRole mode left quality c).rejected.get stage = true) :
    c.passes quality stage = false := by
  rcases c with ⟨pt, eta, dca⟩
  revert h
  cases stage <;> cases mode <;> cases left <;> cases quality <;> cases pt <;> cases eta <;>
    cases dca <;> decide

/-- Debug mode records every stage that rejects the track. -/
theorem rejected_judgeRole_debug (left quality : Bool) (c : RoleChecks) (stage : TrackStage) :
    (judgeRole .debug left quality c).rejected.get stage = !c.passes quality stage := by
  rcases c with ⟨pt, eta, dca⟩
  cases stage <;> cases left <;> cases quality <;> cases pt <;> cases eta <;> cases dca <;> rfl

/-! ## Tags -/

/-- The verdict on a track. -/
def verdictOf (s : TrackSelector) (mode : SelectionMode) (t : Track) : TrackVerdict :=
  judge mode (s.quality.passes t.quality) (s.roles.map fun c => checksOf c t)

/-- The roles of a track, which no mode changes. -/
def rolesOf (s : TrackSelector) (t : Track) : RoleMask :=
  s.roles.map fun c => (checksOf c t).passesAll (s.quality.passes t.quality)

theorem inspect_eq {s : TrackSelector} (hs : s.WellFormed) (t : Track) (mode : SelectionMode) :
    s.inspect t mode = .ok (s.verdictOf mode t) := by
  have htwo : checks s.roles.twoProng t = .ok (checksOf s.roles.twoProng t) :=
    checks_eq (hs .twoProngLeg) t
  have hthree : checks s.roles.threeProng t = .ok (checksOf s.roles.threeProng t) :=
    checks_eq (hs .threeProngLeg) t
  have hbachelor : checks s.roles.bachelor t = .ok (checksOf s.roles.bachelor t) :=
    checks_eq (hs .bachelorLeg) t
  unfold inspect PerRole.mapM
  simp only [htwo, hthree, hbachelor]
  rfl

/-- A track gets the same roles in both modes. -/
theorem roles_verdictOf (s : TrackSelector) (mode : SelectionMode) (t : Track) :
    (s.verdictOf mode t).roles = s.rolesOf t := by
  apply PerRole.ext_get
  intro role
  unfold TrackVerdict.roles verdictOf rolesOf
  rw [PerRole.get_map, get_judge, granted_judgeRole _ _ _ _ (anyLeft_of_kinematics mode _ role),
    PerRole.get_map, PerRole.get_map]

/-- Debug mode records what production records, and possibly more. -/
theorem rejected_debug_of_production (s : TrackSelector) (t : Track) (role : Role)
    (stage : TrackStage)
    (h : ((s.verdictOf .production t).get role).rejected.get stage = true) :
    ((s.verdictOf .debug t).get role).rejected.get stage = true := by
  unfold verdictOf at h ⊢
  rw [get_judge] at h ⊢
  rw [rejected_judgeRole_debug, not_passes_of_rejected_judgeRole _ _ _ _ _ h]
  rfl

end TrackSelector

namespace Search

/-- The tracks of an event with their verdicts. -/
def tagged (s : Search) (event : Event) : List (Track × TrackVerdict) :=
  event.tracks.map fun t => (t, s.selector.verdictOf s.mode t)

theorem tag_eq {s : Search} (hs : s.WellFormed) (event : Event) :
    s.tag event = .ok (s.tagged event) := by
  unfold tag
  apply mapM_eq_ok_map
  intro t _
  rw [TrackSelector.inspect_eq hs.selector]
  rfl

end Search

end DecaySearch
