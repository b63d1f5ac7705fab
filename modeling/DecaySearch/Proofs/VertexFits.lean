-- When straight lines have a vertex. A fit gives a point exactly if the point meets every
-- requirement, and each track is held against the point with its own projector.
import Mathlib.Data.List.ProdSigma
import DecaySearch.Vertex
import DecaySearch.Proofs.FloatOrder

namespace DecaySearch.StraightLine

/-! ## What a vertex must meet -/

/-- The projector onto the plane across a track that has a direction. -/
def across (t : Track) : Mat3 :=
  let direction := t.momentum.divide t.momentum.norm
  Mat3.identity - Mat3.outer direction direction

/-- The matrix of the equations for the point that is closest to all tracks. -/
def normalMatrix (tracks : List Track) : Mat3 := (tracks.map across).foldl (· + ·) .zero

/-- The right side of these equations. -/
def normalVector (tracks : List Track) : Vec3 :=
  (tracks.map fun t => (across t).apply t.position).foldl (· + ·) .zero

/-- A point is a vertex of some tracks. A comparison with NaN rejects nothing in the limits of
the spread, the radius and the distances, and everything in the others. -/
structure IsVertex (settings : FitterSettings) (tracks : List Track) (point : Position) :
    Prop where
  count : 2 ≤ tracks.length
  spread : 0 < settings.maxDzInit → ¬ settings.maxDzInit < dzSpread tracks
  directions : ∀ t ∈ tracks, 0 < t.momentum.norm
  determinant : epsilon < (normalMatrix tracks).determinant.abs
  solution : ∃ inverse, (normalMatrix tracks).inverse? = some inverse ∧
    point = inverse.apply (normalVector tracks)
  finite : point.x.isFinite = true ∧ point.y.isFinite = true ∧ point.z.isFinite = true
  radius : ¬ settings.maxRadius < (point.x * point.x + point.y * point.y).sqrt
  distances : ∀ t ∈ tracks, ¬ settings.maxDca < ((across t).apply (point - t.position)).norm

/-- The ends of the numbers in a list. A list without numbers has its ends the wrong way round
at the infinities. -/
structure Ends (xs : List Float) (low high : Float) : Prop where
  numbers : low.isNaN = false ∧ high.isNaN = false
  bounds : ∀ x ∈ xs, x.isNaN = false → low ≤ x ∧ x ≤ high
  low_attained : low ∈ xs ∨ low = infinity
  high_attained : high ∈ xs ∨ high = -infinity

/-! ## The spread of the reference points -/

/-- The best of a start and of the numbers in a list, in an order of doubles. -/
structure Best (le : Float → Float → Prop) (start : Float) (xs : List Float) (best : Float) :
    Prop where
  number : best.isNaN = false
  start_le : le start best
  le_best : ∀ x ∈ xs, x.isNaN = false → le x best
  attained : best ∈ xs ∨ best = start

/-- An order of the numbers among the doubles, and its strict part. -/
structure Orders (le less : Float → Float → Prop) : Prop where
  refl : ∀ a, a.isNaN = false → le a a
  trans : ∀ a b c, le a b → le b c → le a c
  of_less : ∀ a b, less a b → le a b ∧ b.isNaN = false
  of_not_less : ∀ a b, a.isNaN = false → b.isNaN = false → ¬ less a b → le b a

theorem ascending : Orders (fun a b => a ≤ b) fun a b => a < b where
  refl := fun _ => FloatOrder.le_refl
  trans := fun _ _ _ => FloatOrder.le_trans
  of_less := fun _ _ h => ⟨FloatOrder.le_of_lt h, (FloatOrder.isNaN_of_lt h).2⟩
  of_not_less := fun _ _ ha hb h => FloatOrder.le_of_not_lt hb ha h

theorem descending : Orders (fun a b => b ≤ a) fun a b => b < a where
  refl := fun _ => FloatOrder.le_refl
  trans := fun _ _ _ h h' => FloatOrder.le_trans h' h
  of_less := fun _ _ h => ⟨FloatOrder.le_of_lt h, (FloatOrder.isNaN_of_lt h).1⟩
  of_not_less := fun _ _ ha hb h => FloatOrder.le_of_not_lt ha hb h

section

variable {le less : Float → Float → Prop} (horder : Orders le less)
include horder

theorem Best.append {start middle best : Float} {xs ys : List Float}
    (h : Best le start xs middle) (h' : Best le middle ys best) :
    Best le start (xs ++ ys) best where
  number := h'.number
  start_le := horder.trans _ _ _ h.start_le h'.start_le
  le_best := by
    intro x hx hnumber
    rcases List.mem_append.mp hx with hx | hx
    · exact horder.trans _ _ _ (h.le_best x hx hnumber) h'.start_le
    · exact h'.le_best x hx hnumber
  attained := by
    rcases h'.attained with hlater | rfl
    · exact .inl (List.mem_append_right xs hlater)
    · exact h.attained.imp_left (List.mem_append_left ys)

variable [DecidableRel less]

/-- One of two doubles is the better one, a number in any case if the first one is a number. -/
theorem best_of_two {a : Float} (ha : a.isNaN = false) (b : Float) :
    Best le a [b] (if a.isNaN then b else if less a b then b else a) := by
  rw [ha, if_neg Bool.false_ne_true]
  split
  · rename_i hless
    obtain ⟨hle, hb⟩ := horder.of_less a b hless
    exact ⟨hb, hle, by simpa using horder.refl b, .inl (List.mem_singleton_self b)⟩
  · rename_i hless
    have hworse : b.isNaN = false → le b a := fun hb => horder.of_not_less a b ha hb hless
    exact ⟨ha, horder.refl a ha, by simpa using hworse, .inr rfl⟩

/-- A fold that takes the better one at each turn ends with the best. -/
theorem best_foldl (xs : List Float) {start : Float} (hstart : start.isNaN = false) :
    Best le start xs
      (xs.foldl (fun a b => if a.isNaN then b else if less a b then b else a) start) := by
  induction xs generalizing start with
  | nil =>
    exact ⟨hstart, horder.refl start hstart, fun x hx => absurd hx List.not_mem_nil, .inr rfl⟩
  | cons x rest ih =>
    have hturn := best_of_two horder hstart x
    exact Best.append horder hturn (ih hturn.number)

end

/-- The spread is the distance between the ends of the reference points. -/
theorem exists_ends_dzSpread (tracks : List Track) :
    ∃ low high, Ends (tracks.map (·.position.z)) low high ∧ dzSpread tracks = high - low := by
  have hplus : infinity.isNaN = false := by decide +kernel
  have hminus : (-infinity).isNaN = false := by decide +kernel
  have hhigh := best_foldl ascending (tracks.map (·.position.z)) hminus
  have hlow := best_foldl descending (tracks.map (·.position.z)) hplus
  refine ⟨_, _, ⟨⟨hlow.number, hhigh.number⟩, fun x hx hnumber => ?_, hlow.attained,
    hhigh.attained⟩, rfl⟩
  exact ⟨hlow.le_best x hx hnumber, hhigh.le_best x hx hnumber⟩

/-! ## The projectors of the tracks -/

theorem projector?_eq_some_iff {t : Track} {projector : Mat3} :
    projector? t.momentum = some projector ↔
      0 < t.momentum.norm ∧ projector = across t := by
  unfold projector? across
  dsimp only
  split
  · rename_i hdirection
    rw [Option.some.injEq, eq_comm]
    exact (and_iff_right hdirection).symm
  · rename_i hdirection
    exact iff_of_false nofun fun h => hdirection h.1

/-- There are projectors if every track has a direction, each at the place of its track. -/
theorem mapM_projector?_eq_some_iff {tracks : List Track} {projectors : List Mat3} :
    (tracks.mapM fun t => projector? t.momentum) = some projectors ↔
      (∀ t ∈ tracks, 0 < t.momentum.norm) ∧ projectors = tracks.map across := by
  induction tracks generalizing projectors with
  | nil => simp [eq_comm]
  | cons t rest ih =>
    rw [List.mapM_cons]
    simp only [Option.bind_eq_bind, Option.bind_eq_some_iff, Option.pure_def, Option.some.injEq,
      projector?_eq_some_iff, ih, List.forall_mem_cons, List.map_cons]
    constructor
    · rintro ⟨_, ⟨hdirection, rfl⟩, _, ⟨hrest, rfl⟩, rfl⟩
      exact ⟨⟨hdirection, hrest⟩, rfl⟩
    · rintro ⟨⟨hdirection, hrest⟩, rfl⟩
      exact ⟨_, ⟨hdirection, rfl⟩, _, ⟨hrest, rfl⟩, rfl⟩

/-! ## The point -/

theorem rightSide_eq (tracks : List Track) :
    rightSide tracks (tracks.map across) = normalVector tracks := by
  unfold rightSide normalVector
  rw [List.zipWith_map_right, List.zipWith_self]

theorem solve?_eq_some_iff {tracks : List Track} {point : Position} :
    solve? tracks (tracks.map across) = some point ↔
      epsilon < (normalMatrix tracks).determinant.abs ∧
        ∃ inverse, (normalMatrix tracks).inverse? = some inverse ∧
          point = inverse.apply (normalVector tracks) := by
  have hmatrix : leftSide (tracks.map across) = normalMatrix tracks := rfl
  unfold solve?
  dsimp only
  rw [rightSide_eq, hmatrix]
  split
  · rename_i hdeterminant
    rw [and_iff_right hdeterminant, Option.map_eq_some_iff]
    simp only [eq_comm]
  · rename_i hdeterminant
    exact iff_of_false nofun fun h => hdeterminant h.1

theorem admits_iff {settings : FitterSettings} {tracks : List Track} {point : Position} :
    admits settings tracks (tracks.map across) point = true ↔
      (point.x.isFinite = true ∧ point.y.isFinite = true ∧ point.z.isFinite = true) ∧
        ¬ settings.maxRadius < point.transverse ∧
        ∀ t ∈ tracks, ¬ settings.maxDca < ((across t).apply (point - t.position)).norm := by
  unfold admits distance
  rw [← List.map_prod_left_eq_zip, List.all_map]
  simp only [Vec3.components, List.all_cons, List.all_nil, Bool.and_true, Bool.and_eq_true,
    Bool.not_eq_true', decide_eq_false_iff_not, List.all_eq_true, Function.comp_apply, and_assoc]

/-! ## The fit -/

/-- The checks before the fit: there are enough tracks, and they start close enough to each
other. -/
theorem not_refused_iff {settings : FitterSettings} {tracks : List Track} :
    ¬ (decide (tracks.length < 2) || spreadsTooFar settings tracks) = true ↔
      2 ≤ tracks.length ∧ (0 < settings.maxDzInit → ¬ settings.maxDzInit < dzSpread tracks) := by
  unfold spreadsTooFar
  rw [Bool.not_eq_true, Bool.or_eq_false_iff, Bool.and_eq_false_imp, decide_eq_false_iff_not,
    decide_eq_true_iff, decide_eq_false_iff_not, Nat.not_lt]

/-- A fit gives a vertex exactly if it is one. The momenta are those of the tracks, in their
order. The spread is taken between the ends of the reference points. -/
theorem a_fit_gives_exactly_the_vertex_of_its_tracks (settings : FitterSettings)
    (tracks : List Track) :
    (∀ v, fit settings tracks = some v ↔
      IsVertex settings tracks v.position ∧ v.momenta = tracks.map (·.momentum)) ∧
    ∃ low high, Ends (tracks.map (·.position.z)) low high ∧ dzSpread tracks = high - low := by
  refine ⟨fun v => ?_, exists_ends_dzSpread tracks⟩
  unfold fit
  split
  · rename_i hrefused
    refine iff_of_false nofun fun ⟨hvertex, _⟩ => ?_
    exact not_refused_iff.mpr ⟨hvertex.count, hvertex.spread⟩ hrefused
  · rename_i hfitted
    obtain ⟨hcount, hspread⟩ := not_refused_iff.mp hfitted
    simp only [Option.bind_eq_bind, Option.bind_eq_some_iff, mapM_projector?_eq_some_iff]
    constructor
    · rintro ⟨_, ⟨hdirections, rfl⟩, point, hpoint, hv⟩
      obtain ⟨hdeterminant, hsolution⟩ := solve?_eq_some_iff.mp hpoint
      split at hv
      · rename_i hadmitted
        obtain ⟨hfinite, hradius, hdistances⟩ := admits_iff.mp hadmitted
        cases hv
        exact ⟨⟨hcount, hspread, hdirections, hdeterminant, hsolution, hfinite, hradius,
          hdistances⟩, rfl⟩
      · cases hv
    · rintro ⟨hvertex, hmomenta⟩
      refine ⟨_, ⟨hvertex.directions, rfl⟩, v.position, ?_, ?_⟩
      · exact solve?_eq_some_iff.mpr ⟨hvertex.determinant, hvertex.solution⟩
      · rw [if_pos (admits_iff.mpr ⟨hvertex.finite, hvertex.radius, hvertex.distances⟩),
          ← hmomenta]

/-- Two lines that cross each other at a point. -/
example :
    let line (direction : Momentum) : Track :=
      { id := ⟨0⟩, momentum := direction, sign := .positive, dcaXY := 0, dcaZ := 0
        position := ⟨1, 2, 3⟩, quality := .absent }
    (fit ⟨200, 4, 0.1⟩ [line ⟨1, 0, 0⟩, line ⟨0, 1, 0⟩]).map (·.position) = some ⟨1, 2, 3⟩ := by
  decide +kernel

end DecaySearch.StraightLine
