-- A candidate as the list of its verdicts. A step of a selection at a bit changes the verdict at
-- its place, in all columns at once, and a pass over a group judges each verdict for itself.
import DecaySearch.Candidate

namespace DecaySearch

/-! ## Verdicts -/

namespace Verdict

/-- The verdict before any cut. -/
def start (enabled : Bool) : Verdict := ⟨enabled, .none, .allPassed⟩

def reject (v : Verdict) (stage : CutStage) : Verdict :=
  { v with alive := false, status := v.status.fail stage }

def withMatch (v : Verdict) (m : PermutationMatch) : Verdict := { v with matched := m }

def rejectIf (mode : SelectionMode) (fails : Bool) (v : Verdict) (stage : CutStage) : Verdict :=
  if mode.evaluates v.alive && fails then v.reject stage else v

end Verdict

namespace Candidate

/-- A candidate with some verdicts on its hypotheses. -/
def ofVerdicts (prongs : List Track) (arity : Arity) (verdicts : List Verdict)
    (vertex : Option FittedVertex) : Candidate where
  prongs
  arity
  hypotheses := .ofFlags (verdicts.map (·.alive))
  permutations := verdicts.map (·.matched)
  vertex
  status := verdicts.map (·.status)

/-- A candidate has one entry in each column for each hypothesis of a group of its arity, and
its mask holds no hypothesis beyond them. -/
structure Sized (c : Candidate) (group : HypothesisGroup) : Prop where
  arity : c.arity = group.arity
  permutations : c.permutations.length = group.size
  status : c.status.length = group.size
  mask : ∀ bit, c.hypotheses.contains bit = true → bit < group.size

section

variable {prongs : List Track} {arity : Arity} {verdicts : List Verdict}
  {vertex : Option FittedVertex} (hroom : verdicts.length ≤ HypothesisMask.capacity)
include hroom

theorem contains_ofVerdicts (bit : Nat) :
    (ofVerdicts prongs arity verdicts vertex).hypotheses.contains bit =
      (verdicts[bit]?.map (·.alive)).getD false := by
  unfold ofVerdicts
  rw [HypothesisMask.contains_ofFlags _ _ (by rwa [List.length_map]),
    List.getD_eq_getElem?_getD, List.getElem?_map]

theorem contains_iff_alive (bit : Nat) :
    (ofVerdicts prongs arity verdicts vertex).hypotheses.contains bit = true ↔
      ∃ v, verdicts[bit]? = some v ∧ v.alive = true := by
  rw [contains_ofVerdicts hroom]
  cases verdicts[bit]? <;> simp

/-- The verdicts that a candidate is made of are those that it tells. -/
theorem verdicts_ofVerdicts : (ofVerdicts prongs arity verdicts vertex).verdicts = verdicts := by
  have hcolumns : (ofVerdicts prongs arity verdicts vertex).permutations.zip
      (ofVerdicts prongs arity verdicts vertex).status =
        verdicts.map fun v => (v.matched, v.status) := by
    unfold ofVerdicts
    rw [List.zip_map']
  unfold Candidate.verdicts
  rw [hcolumns]
  apply List.ext_getElem?
  intro bit
  rw [List.getElem?_map, List.getElem?_zipIdx, List.getElem?_map]
  cases hv : verdicts[bit]? with
  | none => rfl
  | some v =>
    simp only [Option.map_some, Nat.zero_add, contains_ofVerdicts hroom, hv, Option.getD_some]

theorem sized_ofVerdicts {group : HypothesisGroup} (harity : arity = group.arity)
    (hlength : verdicts.length = group.size) :
    (ofVerdicts prongs arity verdicts vertex).Sized group where
  arity := harity
  permutations := (List.length_map _).trans hlength
  status := (List.length_map _).trans hlength
  mask := by
    intro bit hbit
    rw [contains_ofVerdicts hroom] at hbit
    rw [← hlength]
    rcases Nat.lt_or_ge bit verdicts.length with hlt | hbeyond
    · exact hlt
    · rw [List.getElem?_eq_none hbeyond] at hbit
      cases hbit

end

/-! ## Steps at a bit -/

/-- A step changes the verdict at a bit, and nothing else. -/
def ActsAt (bit : Nat) (step : Candidate → Except Fault Candidate) (f : Verdict → Verdict) :
    Prop :=
  ∀ prongs arity (verdicts : List Verdict) vertex v,
    verdicts.length ≤ HypothesisMask.capacity → verdicts[bit]? = some v →
      step (ofVerdicts prongs arity verdicts vertex) =
        .ok (ofVerdicts prongs arity (verdicts.set bit (f v)) vertex)

/-- A column is changed at a bit exactly if it has an entry there. -/
theorem changeAt_eq_ok_iff {α : Type} {column changed : List α} {bit : Nat} {change : α → α} :
    changeAt column bit change = .ok changed ↔
      ∃ a, column[bit]? = some a ∧ column.set bit (change a) = changed := by
  unfold changeAt
  cases column[bit]? with
  | none => simp
  | some a => simp

section

variable {verdicts : List Verdict} {bit : Nat} {v : Verdict} (hv : verdicts[bit]? = some v)
include hv

theorem set_self_of_place : verdicts.set bit v = verdicts := by
  obtain ⟨hlt, rfl⟩ := List.getElem?_eq_some_iff.mp hv
  exact List.set_getElem_self hlt

/-- A column that does not tell two verdicts apart stays as it is when one takes the place of
the other. -/
theorem map_set_of_eq {β : Type} {w : Verdict} {column : Verdict → β}
    (h : column w = column v) : (verdicts.set bit w).map column = verdicts.map column := by
  rw [List.map_set, h, ← List.map_set, set_self_of_place hv]

/-- A column whose entry is changed is the column of the changed verdicts. -/
theorem changeAt_map {β : Type} {w : Verdict} {column : Verdict → β} {change : β → β}
    (h : change (column v) = column w) :
    changeAt (verdicts.map column) bit change = .ok ((verdicts.set bit w).map column) := by
  have hcolumn : (verdicts.map column)[bit]? = some (column v) := by
    rw [List.getElem?_map, hv]
    rfl
  exact changeAt_eq_ok_iff.mpr ⟨_, hcolumn, by rw [h, List.map_set]⟩

theorem bit_eq_ok (hroom : verdicts.length ≤ HypothesisMask.capacity) :
    HypothesisMask.bit bit = .ok bit := by
  have hlt := (List.getElem?_eq_some_iff.mp hv).1
  exact HypothesisMask.bit_eq_ok_iff.mpr ⟨Nat.lt_of_lt_of_le hlt hroom, rfl⟩

theorem isPossible_ofVerdicts (hroom : verdicts.length ≤ HypothesisMask.capacity)
    (prongs : List Track) (arity : Arity) (vertex : Option FittedVertex) :
    (ofVerdicts prongs arity verdicts vertex).isPossible bit = .ok v.alive := by
  have hcontains : (ofVerdicts prongs arity verdicts vertex).hypotheses.contains bit =
      v.alive := by
    rw [contains_ofVerdicts hroom, hv]
    rfl
  unfold isPossible
  rw [bit_eq_ok hv hroom]
  exact congrArg Except.ok hcontains

end

theorem ActsAt.bind {bit : Nat} {step next : Candidate → Except Fault Candidate}
    {f g : Verdict → Verdict} (h : ActsAt bit step f) (h' : ActsAt bit next g) :
    ActsAt bit (fun c => step c >>= next) fun v => g (f v) := by
  intro prongs arity verdicts vertex v hroom hv
  have hplace : (verdicts.set bit (f v))[bit]? = some (f v) := by
    rw [List.getElem?_set_self (List.getElem?_eq_some_iff.mp hv).1]
  have hsecond := h' prongs arity _ vertex (f v) (by rwa [List.length_set]) hplace
  rw [List.set_set] at hsecond
  dsimp only
  rw [h prongs arity verdicts vertex v hroom hv]
  exact hsecond

theorem actsAt_pure (bit : Nat) : ActsAt bit pure fun v => v := by
  intro prongs arity verdicts vertex v _ hv
  rw [set_self_of_place hv]
  rfl

theorem actsAt_reject (bit : Nat) (stage : CutStage) :
    ActsAt bit (·.reject bit stage) (·.reject stage) := by
  intro prongs arity verdicts vertex v hroom hv
  have hmask : (HypothesisMask.ofFlags (verdicts.map (·.alive))).remove bit =
      .ofFlags ((verdicts.set bit (v.reject stage)).map (·.alive)) := by
    rw [HypothesisMask.remove_ofFlags _ _ (by rwa [List.length_map]), List.map_set]
    rfl
  have hmatches : (verdicts.set bit (v.reject stage)).map (·.matched) =
      verdicts.map (·.matched) := map_set_of_eq hv rfl
  have hstatus : changeAt (verdicts.map (·.status)) bit (·.fail stage) =
      .ok ((verdicts.set bit (v.reject stage)).map (·.status)) := changeAt_map hv rfl
  dsimp only
  unfold reject ofVerdicts
  rw [bit_eq_ok hv hroom]
  simp only [bind, Except.bind, pure, Except.pure, hstatus, hmask, hmatches]

theorem actsAt_rejectIf (mode : SelectionMode) (fails : Bool) (bit : Nat) (stage : CutStage) :
    ActsAt bit (·.rejectIf mode fails bit stage) (·.rejectIf mode fails stage) := by
  intro prongs arity verdicts vertex v hroom hv
  dsimp only
  unfold rejectIf Verdict.rejectIf
  rw [isPossible_ofVerdicts hv hroom]
  show (if mode.evaluates v.alive && fails then _ else _) = _
  split
  · exact actsAt_reject bit stage prongs arity verdicts vertex v hroom hv
  · exact actsAt_pure bit prongs arity verdicts vertex v hroom hv

theorem actsAt_recordMatch (bit : Nat) (matched : PermutationMatch) :
    ActsAt bit (·.recordMatch bit matched) (·.withMatch matched) := by
  intro prongs arity verdicts vertex v _ hv
  have halive : (verdicts.set bit (v.withMatch matched)).map (·.alive) =
      verdicts.map (·.alive) := map_set_of_eq hv rfl
  have hstatus : (verdicts.set bit (v.withMatch matched)).map (·.status) =
      verdicts.map (·.status) := map_set_of_eq hv rfl
  have hmatches : changeAt (verdicts.map (·.matched)) bit (fun _ => matched) =
      .ok ((verdicts.set bit (v.withMatch matched)).map (·.matched)) := changeAt_map hv rfl
  dsimp only
  unfold recordMatch ofVerdicts
  simp only [bind, Except.bind, pure, Except.pure, hmatches, halive, hstatus]

/-! ## A pass over a group -/

theorem ensureArity_eq_ok_iff {c : Candidate} {group : HypothesisGroup} :
    c.ensureArity group = .ok () ↔ c.arity = group.arity := by
  unfold ensureArity
  split
  · rename_i hsame
    exact iff_of_true rfl hsame
  · rename_i hother
    simp [hother]

/-- Turns that each change the entry at their own place change all entries of a list. -/
theorem foldlM_zipIdx_eq_ok {α β γ ε : Type} {step : γ → α × Nat → Except ε γ}
    (state : List β → γ) {g : α → β → β} {size : Nat} (xs : List α) (done ys : List β)
    (hstep : ∀ x ∈ xs, ∀ zs i y, zs.length ≤ size → zs[i]? = some y →
      step (state zs) (x, i) = .ok (state (zs.set i (g x y))))
    (hlength : ys.length = xs.length) (hsize : (done ++ ys).length ≤ size) :
    (xs.zipIdx done.length).foldlM step (state (done ++ ys)) =
      .ok (state (done ++ List.zipWith g xs ys)) := by
  induction xs generalizing done ys with
  | nil =>
    rw [List.length_eq_zero_iff.mp hlength]
    rfl
  | cons x xs ih =>
    obtain ⟨y, ys, rfl⟩ := List.exists_cons_of_length_eq_add_one hlength
    have hplace : (done ++ y :: ys)[done.length]? = some y := by simp
    have hset : (done ++ y :: ys).set done.length (g x y) = (done ++ [g x y]) ++ ys := by simp
    have hrest := ih (done ++ [g x y]) ys (fun other hother => hstep other (by simp [hother]))
      (Nat.succ.inj hlength) (by simpa using hsize)
    rw [List.length_append, List.length_singleton] at hrest
    rw [List.zipIdx_cons, List.foldlM_cons, hstep x (by simp) _ _ y hsize hplace, hset,
      List.zipWith_cons_cons, List.append_cons done _ (List.zipWith g xs ys)]
    exact hrest

section

variable {test : DecayHypothesis → Nat → Candidate → Except Fault Candidate}
  {judged : DecayHypothesis → Verdict → Verdict}

/-- What one turn of a pass makes of a verdict. -/
def turn (mode : SelectionMode) (judged : DecayHypothesis → Verdict → Verdict)
    (h : DecayHypothesis) (v : Verdict) : Verdict :=
  if h.enabled && mode.evaluates v.alive then judged h v else v

theorem actsAt_testOne {h : DecayHypothesis} {bit : Nat}
    (htest : ActsAt bit (test h bit) (judged h)) (mode : SelectionMode) :
    ActsAt bit (·.testOne mode test h bit) (turn mode judged h) := by
  intro prongs arity verdicts vertex v hroom hv
  have hskip := actsAt_pure bit prongs arity verdicts vertex v hroom hv
  dsimp only
  unfold testOne turn
  rw [isPossible_ofVerdicts hv hroom]
  cases h.enabled with
  | false => exact hskip
  | true =>
    rw [Bool.true_and]
    show (if mode.evaluates v.alive then _ else _) = _
    split
    · exact htest prongs arity verdicts vertex v hroom hv
    · exact hskip

/-- A pass over a group judges each verdict for itself. -/
theorem testEach_ofVerdicts {group : HypothesisGroup}
    (htest : ∀ h ∈ group.hypotheses, ∀ bit, ActsAt bit (test h bit) (judged h))
    (mode : SelectionMode) (prongs : List Track) (arity : Arity) {verdicts : List Verdict}
    (vertex : Option FittedVertex) (hlength : verdicts.length = group.size)
    (hroom : group.size ≤ HypothesisMask.capacity) :
    (ofVerdicts prongs arity verdicts vertex).testEach mode group test =
      .ok (ofVerdicts prongs arity (List.zipWith (turn mode judged) group.hypotheses verdicts)
        vertex) :=
  foldlM_zipIdx_eq_ok (ofVerdicts prongs arity · vertex) group.hypotheses [] verdicts
    (fun h hh verdicts bit v hsize hv =>
      actsAt_testOne (htest h hh bit) mode prongs arity verdicts vertex v hsize hv) hlength
    (by rwa [List.nil_append, hlength])

end

end Candidate

end DecaySearch
