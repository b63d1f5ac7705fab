-- What the set-up of a search guarantees: tables that passed their checks, with
-- every column that a selection reads, and hypotheses on their own bits.
import DecaySearch.Search
import DecaySearch.Proofs.CutTables

namespace DecaySearch

/-! ## Steps that do not fail -/

/-- A list of steps that all succeed gives the list of their results. -/
theorem mapM_eq_ok_map {α β ε : Type} {f : α → Except ε β} {g : α → β} (xs : List α)
    (h : ∀ x ∈ xs, f x = .ok (g x)) : xs.mapM f = .ok (xs.map g) := by
  induction xs with
  | nil => rfl
  | cons x rest ih =>
    rw [List.mapM_cons, h x (by simp), ih fun y hy => h y (by simp [hy])]
    rfl

theorem foldlM_eq_ok_foldl {α β ε : Type} {f : β → α → Except ε β} {g : β → α → β}
    (xs : List α) (h : ∀ b, ∀ x ∈ xs, f b x = .ok (g b x)) (b : β) :
    xs.foldlM f b = .ok (xs.foldl g b) := by
  induction xs generalizing b with
  | nil => rfl
  | cons x rest ih =>
    rw [List.foldlM_cons, h b x (by simp)]
    exact ih (fun c y hy => h c y (by simp [hy])) (g b x)

/-- A sequence of two steps succeeds only if both do. -/
theorem steps_of_bind_eq_ok {α β ε : Type} {x : Except ε α} {f : α → Except ε β} {b : β}
    (h : (x >>= f) = .ok b) : ∃ a, x = .ok a ∧ f a = .ok b := by
  cases x with
  | error e => cases h
  | ok a => exact ⟨a, rfl, h⟩

theorem bind_eq_ok_iff {α β ε : Type} {x : Except ε α} {f : α → Except ε β} {b : β} :
    (x >>= f) = .ok b ↔ ∃ a, x = .ok a ∧ f a = .ok b := by
  constructor
  · exact steps_of_bind_eq_ok
  · rintro ⟨a, rfl, h⟩
    exact h

/-- Two steps fail with the error of the first one that does. -/
theorem bind_eq_error_iff {α β ε : Type} {x : Except ε α} {f : α → Except ε β} {e : ε} :
    (x >>= f) = .error e ↔ x = .error e ∨ ∃ a, x = .ok a ∧ f a = .error e := by
  cases x with
  | error d =>
    change Except.error d = Except.error e ↔ _
    simp
  | ok a =>
    change f a = .error e ↔ _
    simp

/-- A list of steps succeeds exactly if all of them do. -/
theorem mapM_eq_ok_iff {α β ε : Type} {f : α → Except ε β} {xs : List α} {ys : List β} :
    xs.mapM f = .ok ys ↔ List.Forall₂ (fun x y => f x = .ok y) xs ys := by
  induction xs generalizing ys with
  | nil => exact ⟨fun h => by cases h; exact .nil, fun h => by cases h; rfl⟩
  | cons x rest ih =>
    rw [List.mapM_cons]
    simp only [bind_eq_ok_iff, ih]
    constructor
    · rintro ⟨y, hx, others, hrest, h⟩
      cases h
      exact .cons hx hrest
    · intro h
      cases h with
      | cons hx hrest => exact ⟨_, hx, _, hrest, rfl⟩

/-- A step with a condition for its success, and a reason against it for each error, fails
exactly if the condition does not hold. -/
theorem exists_error_iff_not {α ε : Type} {x : Except ε α} {p : Prop}
    (hok : ∀ a, x = .ok a → p) (herror : ∀ e, x = .error e → ¬ p) :
    (∃ e, x = .error e) ↔ ¬ p := by
  cases x with
  | error e => exact iff_of_true ⟨e, rfl⟩ (herror e rfl)
  | ok a => exact iff_of_false (fun ⟨_, h⟩ => by cases h) (not_not_intro (hok a rfl))

/-! ## Hypotheses and groups -/

/-- A hypothesis whose table has passed all checks and has every column that the
selections of its arity read. -/
structure DecayHypothesis.WellFormed (h : DecayHypothesis) : Prop where
  table : h.cuts.WellFormed
  columns : ∀ v ∈ h.decay.arity.requiredCuts, h.cuts.has v = true

/-- Well-formed hypotheses of one arity, each at the position of its bit. -/
structure HypothesisGroup.WellFormed (g : HypothesisGroup) : Prop where
  members : ∀ h ∈ g.hypotheses, h.WellFormed
  same_arity : ∀ h ∈ g.hypotheses, h.decay.arity = g.arity
  own_bit : ∀ (i : Nat) (h : i < g.hypotheses.length), g.hypotheses[i].decay.bit = i

/-- Both groups are well-formed and stand in their own places. -/
structure HypothesisSet.WellFormed (s : HypothesisSet) : Prop where
  groups : ∀ arity, (s.group arity).WellFormed
  arities : ∀ arity, (s.group arity).arity = arity

theorem DecayHypothesis.make_wellFormed {decay : Decay} {enabled : Bool} {cuts : CutTable}
    {h : DecayHypothesis} (hc : cuts.WellFormed) (hm : make decay enabled cuts = .ok h) :
    h.WellFormed := by
  unfold make at hm
  split at hm
  · cases hm
  · rename_i hnone
    cases hm
    refine ⟨hc, fun v hv => ?_⟩
    simpa using List.find?_eq_none.mp hnone v hv

theorem HypothesisGroup.make_wellFormed {arity : Arity} {hypotheses : List DecayHypothesis}
    {g : HypothesisGroup} (hh : ∀ h ∈ hypotheses, h.WellFormed)
    (hm : make arity hypotheses = .ok g) : g.WellFormed ∧ g.arity = arity := by
  unfold make at hm
  split at hm
  · cases hm
  · split at hm
    · cases hm
    · rename_i hnone
      cases hm
      rw [List.findSome?_eq_none_iff] at hnone
      have hplace : ∀ (i : Nat) (hi : i < hypotheses.length),
          misplaced? arity hypotheses[i] i = none := fun i hi =>
        hnone (hypotheses[i], i) (List.mk_mem_zipIdx_iff_getElem?.mpr (List.getElem?_eq_getElem hi))
      refine ⟨⟨hh, fun h hmem => ?_, fun i hi => ?_⟩, rfl⟩
      · obtain ⟨i, hi, rfl⟩ := List.getElem_of_mem hmem
        have := hplace i hi
        unfold misplaced? at this
        split at this
        · cases this
        · rename_i ha
          simpa using ha
      · have := hplace i hi
        unfold misplaced? at this
        split at this
        · cases this
        · split at this
          · cases this
          · rename_i hb
            simpa using hb

theorem Decay.bit_lt_maxHypotheses (d : Decay) : d.bit < maxHypotheses := by
  cases d <;> decide

/-- No group is larger than its place in the tally. -/
theorem HypothesisGroup.WellFormed.length_le {g : HypothesisGroup} (hg : g.WellFormed) :
    g.hypotheses.length ≤ maxHypotheses := by
  rcases Nat.eq_zero_or_pos g.hypotheses.length with h0 | hpos
  · omega
  · have hbit := hg.own_bit (g.hypotheses.length - 1) (by omega)
    have := Decay.bit_lt_maxHypotheses g.hypotheses[g.hypotheses.length - 1].decay
    omega

/-! ## The search -/

/-- The cuts of a role whose table has passed all checks. -/
structure RoleCuts.WellFormed (c : RoleCuts) : Prop where
  table : c.dca.WellFormed
  columns : ∀ v ∈ RoleCuts.required, c.dca.has v = true

/-- A selection of single tracks with well-formed cuts for every role. -/
def TrackSelector.WellFormed (s : TrackSelector) : Prop := ∀ role, (s.roles.get role).WellFormed

/-- A search that was set up from parts which passed their checks. -/
structure Search.WellFormed (s : Search) : Prop where
  selector : s.selector.WellFormed
  hypotheses : s.hypotheses.WellFormed

/-- What setting up a search fixes: the parts are taken over, debug mode is the
mode of all selections, and only debug mode can be exhaustive. -/
theorem Search.make_eq_ok {selector : TrackSelector} {hypotheses : HypothesisSet}
    {fitter : Fitter} {settings : SearchSettings} {cascades : Option CascadeSettings} {s : Search}
    (h : Search.make selector hypotheses fitter settings cascades = .ok s) :
    s = { selector, hypotheses, fitter, cascades
          preselector := ⟨settings.ptTolerance, .ofDebug settings.debug⟩
          scope :=
            { exhaustive := settings.debug && settings.exhaustiveDebug
              threeProng := settings.doThreeProng } } := by
  unfold Search.make Preselector.make at h
  split at h
  · cases h
    rfl
  · cases h

/-- A search is well-formed when its parts are. -/
theorem Search.make_wellFormed {selector : TrackSelector} (hselector : selector.WellFormed)
    {hypotheses : HypothesisSet} (hhypotheses : hypotheses.WellFormed) {fitter : Fitter}
    {settings : SearchSettings} {cascades : Option CascadeSettings} {s : Search}
    (h : Search.make selector hypotheses fitter settings cascades = .ok s) : s.WellFormed := by
  rw [make_eq_ok h]
  exact ⟨hselector, hhypotheses⟩

/-! ## A small set-up -/

namespace Sample

/-- Every track may take every role. -/
def roleCuts : RoleCuts := ⟨0, 10, ⟨[0, 100], RoleCuts.required, [[0, 10]]⟩⟩

def selector : TrackSelector := ⟨.constant roleCuts, ⟨false, 0⟩⟩

/-- One wide bin, with a mass window around the D⁰ mass. -/
def d0 : DecayHypothesis :=
  ⟨.d0ToPiK, true, ⟨[0, 100], Arity.twoProng.requiredCuts, [[1.5, 2.5, 0.1, 0.9]]⟩⟩

/-- One wide bin without a mass window. -/
def dPlus : DecayHypothesis :=
  ⟨.dPlusToPiKPi, true, ⟨[0, 100], Arity.threeProng.requiredCuts, [[-1, 0, 0.9, 0.05]]⟩⟩

def hypotheses : HypothesisSet := ⟨⟨.twoProng, [d0]⟩, ⟨.threeProng, [dPlus]⟩⟩

/-- Finds a vertex beside the origin for any tracks, and leaves the momenta as they
are. -/
def fitter : Fitter := fun prongs => some ⟨⟨0.125, 0, 0⟩, prongs.map (·.momentum)⟩

def search (debug exhaustive : Bool) : Search where
  selector
  hypotheses
  fitter
  preselector := ⟨0.125, .ofDebug debug⟩
  scope := { exhaustive := debug && exhaustive, threeProng := true }
  cascades := none

/-- A track from the origin. -/
def track (id : UInt64) (sign : Sign) (momentum : Momentum) : Track where
  id := ⟨id⟩
  momentum
  sign
  dcaXY := 0.125
  dcaZ := 0
  position := .zero
  quality := .absent

/-- Two tracks at an angle, whose mass is close to that of the D⁰. -/
def pair : List Track :=
  [track 1 .positive ⟨1.25, 0.75, 0⟩, track 2 .negative ⟨1.25, -0.75, 0⟩]

def event : Event := ⟨.zero, true, pair, []⟩

theorem selector_wellFormed : selector.WellFormed := by
  have hcuts : roleCuts.WellFormed := by
    obtain ⟨htable, _⟩ := (CutTable.defect?_eq_none_iff [0, 100] RoleCuts.required [[0, 10]]
      RoleCuts.required).mp (by decide)
    exact ⟨htable, by decide⟩
  intro role
  cases role <;> exact hcuts

theorem hypotheses_wellFormed : hypotheses.WellFormed := by
  have htwo : ∀ h ∈ [d0], h.WellFormed := by
    rw [List.forall_mem_singleton]
    obtain ⟨htable, _⟩ := (CutTable.defect?_eq_none_iff [0, 100] Arity.twoProng.requiredCuts
      [[1.5, 2.5, 0.1, 0.9]] []).mp (by decide)
    exact ⟨htable, by decide⟩
  have hthree : ∀ h ∈ [dPlus], h.WellFormed := by
    rw [List.forall_mem_singleton]
    obtain ⟨htable, _⟩ := (CutTable.defect?_eq_none_iff [0, 100] Arity.threeProng.requiredCuts
      [[-1, 0, 0.9, 0.05]] []).mp (by decide)
    exact ⟨htable, by decide⟩
  constructor
  · intro arity
    cases arity
    · have hmake : HypothesisGroup.make .twoProng [d0] = .ok hypotheses.twoProng := rfl
      exact (HypothesisGroup.make_wellFormed htwo hmake).1
    · have hmake : HypothesisGroup.make .threeProng [dPlus] = .ok hypotheses.threeProng := rfl
      exact (HypothesisGroup.make_wellFormed hthree hmake).1
  · intro arity
    cases arity <;> rfl

theorem search_wellFormed (debug exhaustive : Bool) : (search debug exhaustive).WellFormed :=
  ⟨selector_wellFormed, hypotheses_wellFormed⟩

theorem make_search (debug exhaustive : Bool) :
    Search.make selector hypotheses fitter ⟨0.125, debug, true, exhaustive⟩ none =
      .ok (search debug exhaustive) := by
  have htolerance : ((0.125 : Float).isFinite && 0 ≤ (0.125 : Float)) = true := by decide
  unfold Search.make Preselector.make
  rw [if_pos htolerance]
  rfl

end Sample

end DecaySearch
