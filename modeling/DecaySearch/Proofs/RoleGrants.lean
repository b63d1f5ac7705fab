-- What the selection of single tracks decides. Each stage is a condition on the track and
-- on the cuts of one role, and a role is granted exactly when its four conditions hold, in
-- production as in debug mode. Debug mode flags every condition that fails.
import DecaySearch.Proofs.Acceptance
import DecaySearch.Proofs.TrackTallies

namespace DecaySearch

/-! ## The conditions -/

/-- One of the two layers next to the beam was hit. -/
def TrackQuality.HitsInnerLayer (q : TrackQuality) : Prop :=
  q.itsClusterMap.toNat.testBit 0 = true ∨ q.itsClusterMap.toNat.testBit 1 = true

/-- The reconstruction of a track is good enough. A disabled gate asks for nothing. -/
def QualityGate.Admits (gate : QualityGate) (q : TrackQuality) : Prop :=
  gate.enabled = false ∨
    (gate.minTpcClusters.toNat ≤ q.tpcClusters.toNat ∧ q.itsRefit = true ∧ q.HitsInnerLayer)

/-- The momentum of a track lies in a bin whose window contains its impact parameter. -/
def RoleCuts.InDcaWindow (c : RoleCuts) (t : Track) : Prop :=
  ∃ i, c.dca.InBin i t.pt ∧
    c.dca.threshold i .dcaXYMin ≤ t.dcaXY.abs ∧ t.dcaXY.abs ≤ c.dca.threshold i .dcaXYMax

/-- A track meets the condition of a stage, under the cuts of a role. The other stages and
the other roles have no part in it. -/
def TrackSelector.Meets (s : TrackSelector) (role : Role) (t : Track) : TrackStage → Prop
  | .pt => (s.roles.get role).ptMin ≤ t.pt
  | .eta => t.eta.abs ≤ (s.roles.get role).etaMax
  | .quality => s.quality.Admits t.quality
  | .dca => (s.roles.get role).InDcaWindow t

/-! ## The stages decide the conditions -/

/-- Four divides the hits exactly when the two lowest layers have none. -/
theorem TrackQuality.hasInnerHit_iff (q : TrackQuality) :
    q.hasInnerHit = true ↔ q.HitsInnerLayer := by
  have hlayers : q.itsClusterMap.toNat % 4 =
      (q.itsClusterMap.toNat.testBit 0).toNat + 2 * (q.itsClusterMap.toNat.testBit 1).toNat := by
    rw [Nat.toNat_testBit, Nat.toNat_testBit]
    omega
  unfold hasInnerHit HitsInnerLayer
  rw [hlayers]
  cases q.itsClusterMap.toNat.testBit 0 <;> cases q.itsClusterMap.toNat.testBit 1 <;> decide

theorem QualityGate.passes_iff (gate : QualityGate) (q : TrackQuality) :
    gate.passes q = true ↔ gate.Admits q := by
  unfold passes Admits
  rw [Bool.or_eq_true, Bool.and_eq_true, Bool.and_eq_true, TrackQuality.hasInnerHit_iff,
    Bool.not_eq_true', decide_eq_true_iff, UInt16.le_iff_toNat_le, and_assoc]

theorem RoleCuts.admitsDca_iff {c : RoleCuts} (hc : c.WellFormed) (t : Track) :
    c.admitsDca t = true ↔ c.InDcaWindow t := by
  unfold admitsDca InDcaWindow
  cases hbin : c.dca.findBin t.pt with
  | none =>
    have hnone := (CutTable.findBin_eq_none_iff hc.table t.pt).mp hbin
    simp [hnone]
  | some bin =>
    -- The bin that the look-up finds is the only one.
    simp only [CutTable.inBin_iff_of_findBin hc.table hbin, exists_eq_left, Bool.and_eq_true,
      decide_eq_true_iff]

namespace TrackSelector

variable {s : TrackSelector} (hs : s.WellFormed) (t : Track) (role : Role)
include hs

theorem passes_iff_meets (stage : TrackStage) :
    (checksOf (s.roles.get role) t).passes (s.quality.passes t.quality) stage = true ↔
      s.Meets role t stage := by
  cases stage with
  | pt => exact decide_eq_true_iff
  | eta => exact decide_eq_true_iff
  | quality => exact s.quality.passes_iff t.quality
  | dca => exact RoleCuts.admitsDca_iff (hs role) t

theorem passesAll_iff_meets :
    (checksOf (s.roles.get role) t).passesAll (s.quality.passes t.quality) = true ↔
      ∀ stage, s.Meets role t stage := by
  unfold RoleChecks.passesAll
  rw [List.all_eq_true]
  constructor
  · intro hall stage
    exact (passes_iff_meets hs t role stage).mp (hall stage (by cases stage <;> decide))
  · intro hall stage _
    exact (passes_iff_meets hs t role stage).mpr (hall stage)

/-- Neither mode grants a role unless all four conditions hold, and both do if they do. -/
theorem granted_verdictOf_iff (mode : SelectionMode) :
    ((s.verdictOf mode t).get role).granted = true ↔ ∀ stage, s.Meets role t stage := by
  unfold verdictOf
  rw [granted_judge, PerRole.get_map, passesAll_iff_meets hs]

theorem rejected_verdictOf_debug_iff (stage : TrackStage) :
    ((s.verdictOf .debug t).get role).rejected.get stage = true ↔ ¬ s.Meets role t stage := by
  unfold verdictOf
  rw [rejected_judge_debug, PerRole.get_map, Bool.not_eq_true', ← Bool.not_eq_true,
    passes_iff_meets hs]

/-- Without a bin for its momentum, a track is never granted the role. -/
theorem not_granted_of_no_bin (hnone : ∀ i, ¬ (s.roles.get role).dca.InBin i t.pt)
    (mode : SelectionMode) : ((s.verdictOf mode t).get role).granted = false := by
  rw [← Bool.not_eq_true, granted_verdictOf_iff hs]
  intro hall
  obtain ⟨i, hin, _⟩ := hall .dca
  exact hnone i hin

omit hs in
/-- Debug mode judges a role by its own cuts and by the gate that all roles share. -/
theorem get_verdictOf_debug :
    (s.verdictOf .debug t).get role =
      judgeRole .debug true (s.quality.passes t.quality) (checksOf (s.roles.get role) t) := by
  unfold verdictOf
  rw [get_judge, PerRole.get_map]
  rfl

omit hs in
theorem get_verdictOf_debug_congr {other : TrackSelector} (hquality : other.quality = s.quality)
    (hcuts : other.roles.get role = s.roles.get role) :
    (other.verdictOf .debug t).get role = (s.verdictOf .debug t).get role := by
  rw [get_verdictOf_debug, get_verdictOf_debug, hquality, hcuts]

/-- The cuts of the other roles have no part in whether a role is granted. -/
theorem granted_verdictOf_congr {other : TrackSelector} (hother : other.WellFormed)
    (hquality : other.quality = s.quality) (hcuts : other.roles.get role = s.roles.get role)
    (mode : SelectionMode) :
    ((other.verdictOf mode t).get role).granted = ((s.verdictOf mode t).get role).granted := by
  have hmeets : ∀ stage, other.Meets role t stage ↔ s.Meets role t stage := by
    intro stage
    unfold Meets
    rw [hquality, hcuts]
  rw [Bool.eq_iff_iff, granted_verdictOf_iff hother, granted_verdictOf_iff hs]
  exact forall_congr' hmeets

end TrackSelector

/-! ## The selection is exact -/

/-- Both modes judge any track. They grant a role exactly when the track meets the four
conditions of the role, and debug mode flags exactly the conditions that it does not meet.
The cuts of the other roles change nothing, and without a bin for the momentum the role is
never granted. -/
theorem a_role_is_granted_when_the_track_meets_its_four_conditions {s : TrackSelector}
    (hs : s.WellFormed) (t : Track) :
    ∃ production debug,
      s.inspect t .production = .ok production ∧ s.inspect t .debug = .ok debug ∧
      ∀ role,
        ((production.get role).granted = true ↔ (debug.get role).granted = true) ∧
        ((production.get role).granted = true ↔ ∀ stage, s.Meets role t stage) ∧
        (∀ stage, (debug.get role).rejected.get stage = true ↔ ¬ s.Meets role t stage) ∧
        ((∀ i, ¬ (s.roles.get role).dca.InBin i t.pt) →
          (production.get role).granted = false ∧ (debug.get role).granted = false) ∧
        (∀ other : TrackSelector, other.WellFormed → other.quality = s.quality →
          other.roles.get role = s.roles.get role →
          ∃ production' debug',
            other.inspect t .production = .ok production' ∧
            other.inspect t .debug = .ok debug' ∧
            (production'.get role).granted = (production.get role).granted ∧
            debug'.get role = debug.get role) := by
  refine ⟨_, _, TrackSelector.inspect_eq hs t .production, TrackSelector.inspect_eq hs t .debug,
    fun role => ⟨?_, ?_, ?_, ?_, ?_⟩⟩
  · rw [TrackSelector.granted_verdictOf_iff hs, TrackSelector.granted_verdictOf_iff hs]
  · exact TrackSelector.granted_verdictOf_iff hs t role .production
  · exact TrackSelector.rejected_verdictOf_debug_iff hs t role
  · intro hnone
    exact ⟨TrackSelector.not_granted_of_no_bin hs t role hnone .production,
      TrackSelector.not_granted_of_no_bin hs t role hnone .debug⟩
  · intro other hother hquality hcuts
    refine ⟨_, _, TrackSelector.inspect_eq hother t .production,
      TrackSelector.inspect_eq hother t .debug, ?_, ?_⟩
    · exact TrackSelector.granted_verdictOf_congr hs t role hother hquality hcuts .production
    · exact TrackSelector.get_verdictOf_debug_congr t role hquality hcuts

/-- A slow track without clusters is too slow for a two-prong leg only, and its impact
parameter is in the window of every role. -/
theorem a_slow_track_fails_two_conditions :
    Sample.strictSelector.WellFormed ∧
    ∃ production debug,
      Sample.strictSelector.inspect Sample.slowTrack .production = .ok production ∧
      Sample.strictSelector.inspect Sample.slowTrack .debug = .ok debug ∧
      (∀ role, (production.get role).granted = false) ∧
      (debug.get .twoProngLeg).rejected.pt = true ∧
      (debug.get .threeProngLeg).rejected.pt = false ∧
      (∀ role, (debug.get role).rejected.quality = true ∧
        (debug.get role).rejected.dca = false) := by
  have hs := Sample.strictSelector_wellFormed
  obtain ⟨production, debug, hproduction, hdebug, hroles⟩ :=
    a_role_is_granted_when_the_track_meets_its_four_conditions hs Sample.slowTrack
  have hquality : ∀ role, ¬ Sample.strictSelector.Meets role Sample.slowTrack .quality := by
    intro role hadmits
    rw [TrackSelector.Meets, ← QualityGate.passes_iff] at hadmits
    revert hadmits
    decide
  have hdca : ∀ role, Sample.strictSelector.Meets role Sample.slowTrack .dca := by
    intro role
    refine ⟨0, ⟨0, 100, ?_, ?_, by decide +kernel, by decide +kernel⟩, ?_, ?_⟩
    all_goals cases role <;> decide +kernel
  have hslow : ¬ Sample.strictSelector.Meets .twoProngLeg Sample.slowTrack .pt := by
    change ¬ (2 : Float) ≤ Sample.slowTrack.pt
    decide +kernel
  have hfast : Sample.strictSelector.Meets .threeProngLeg Sample.slowTrack .pt := by
    change (0 : Float) ≤ Sample.slowTrack.pt
    decide +kernel
  refine ⟨hs, production, debug, hproduction, hdebug, ?_, ?_, ?_, ?_⟩
  · intro role
    rw [← Bool.not_eq_true, (hroles role).2.1]
    exact fun hall => hquality role (hall .quality)
  · exact ((hroles .twoProngLeg).2.2.1 .pt).mpr hslow
  · rw [← Bool.not_eq_true]
    exact fun hpt => ((hroles .threeProngLeg).2.2.1 .pt).mp hpt hfast
  · intro role
    refine ⟨((hroles role).2.2.1 .quality).mpr (hquality role), ?_⟩
    rw [← Bool.not_eq_true]
    exact fun hrejected => ((hroles role).2.2.1 .dca).mp hrejected (hdca role)

end DecaySearch
