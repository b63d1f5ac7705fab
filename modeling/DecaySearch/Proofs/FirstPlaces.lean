-- The first place of a list at which something holds, for searches through lists that stop
-- there.
import Mathlib.Data.List.Forall2

namespace DecaySearch

/-- An element of a list for which something holds, with none before it. -/
structure FirstAt {α : Type} (p : α → Prop) (xs : List α) (i : Nat) (x : α) : Prop where
  found : xs[i]? = some x
  holds : p x
  none_before : ∀ j < i, ∀ y, xs[j]? = some y → ¬ p y

/-- What stands at a place of one list has its partner at the same place of the other. -/
theorem exists_of_forall₂ {α β : Type} {R : α → β → Prop} {xs : List α} {ys : List β}
    (h : List.Forall₂ R xs ys) {i : Nat} {x : α} (hx : xs[i]? = some x) :
    ∃ y, ys[i]? = some y ∧ R x y := by
  obtain ⟨hlt, rfl⟩ := List.getElem?_eq_some_iff.mp hx
  have hlt' : i < ys.length := h.length_eq ▸ hlt
  exact ⟨ys[i], List.getElem?_eq_getElem hlt', h.get hlt hlt'⟩

theorem exists_mem_of_forall₂ {α β : Type} {R : α → β → Prop} {xs : List α} {ys : List β}
    (h : List.Forall₂ R xs ys) {x : α} (hx : x ∈ xs) : ∃ y ∈ ys, R x y := by
  obtain ⟨i, hi⟩ := List.getElem?_of_mem hx
  obtain ⟨y, hy, hxy⟩ := exists_of_forall₂ h hi
  exact ⟨y, List.mem_of_getElem? hy, hxy⟩

namespace FirstAt

variable {α β : Type} {p : α → Prop} {xs : List α} {i : Nat} {x : α}

theorem unique {j : Nat} {y : α} (hx : FirstAt p xs i x) (hy : FirstAt p xs j y) :
    i = j ∧ x = y := by
  obtain rfl : i = j := by
    rcases Nat.lt_trichotomy i j with hlt | heq | hgt
    · exact absurd hx.holds (hy.none_before i hlt x hx.found)
    · exact heq
    · exact absurd hy.holds (hx.none_before j hgt y hy.found)
  exact ⟨rfl, Option.some.inj (hx.found.symm.trans hy.found)⟩

/-- The first place of a list is its head, or the first place behind a head that is none. -/
theorem cons_iff {y : α} :
    FirstAt p (y :: xs) i x ↔
      (p y ∧ i = 0 ∧ x = y) ∨ (¬ p y ∧ ∃ j, i = j + 1 ∧ FirstAt p xs j x) := by
  constructor
  · rintro ⟨hfound, hp, hnone⟩
    cases i with
    | zero =>
      cases hfound
      exact .inl ⟨hp, rfl, rfl⟩
    | succ j =>
      refine .inr ⟨hnone 0 (Nat.succ_pos j) y rfl, j, rfl, hfound, hp, fun k hk z hz => ?_⟩
      exact hnone (k + 1) (Nat.succ_lt_succ hk) z hz
  · rintro (⟨hp, rfl, rfl⟩ | ⟨hy, j, rfl, hfound, hp, hnone⟩)
    · exact ⟨rfl, hp, fun k hk => absurd hk (Nat.not_lt_zero k)⟩
    · refine ⟨hfound, hp, fun k hk z hz => ?_⟩
      cases k with
      | zero =>
        cases hz
        exact hy
      | succ k => exact hnone k (Nat.lt_of_succ_lt_succ hk) z hz

theorem iff_append :
    FirstAt p xs i x ↔
      ∃ before after, xs = before ++ x :: after ∧ before.length = i ∧ p x ∧
        ∀ y ∈ before, ¬ p y := by
  constructor
  · rintro ⟨hfound, hp, hfirst⟩
    obtain ⟨hi, rfl⟩ := List.getElem?_eq_some_iff.mp hfound
    refine ⟨xs.take i, xs.drop (i + 1), ?_, List.length_take_of_le (Nat.le_of_lt hi), hp, ?_⟩
    · rw [← List.drop_eq_getElem_cons hi, List.take_append_drop]
    · intro y hy
      obtain ⟨j, hj, rfl⟩ := List.mem_take_iff_getElem.mp hy
      exact hfirst j (by omega) _ (List.getElem?_eq_getElem (by omega))
  · rintro ⟨before, after, rfl, rfl, hp, hbefore⟩
    refine ⟨by simp, hp, ?_⟩
    intro j hj y hy
    rw [List.getElem?_append_left hj] at hy
    exact hbefore y (List.mem_of_getElem? hy)

theorem find?_eq_some_iff {q : α → Bool} (hq : ∀ y, q y = true ↔ p y) :
    xs.find? q = some x ↔ ∃ i, FirstAt p xs i x := by
  rw [List.find?_eq_some_iff_append, hq]
  constructor
  · rintro ⟨hx, before, after, heq, hbefore⟩
    exact ⟨_, iff_append.mpr ⟨before, after, heq, rfl, hx, by simpa [← hq] using hbefore⟩⟩
  · rintro ⟨i, hfirst⟩
    obtain ⟨before, after, heq, _, hx, hbefore⟩ := iff_append.mp hfirst
    exact ⟨hx, before, after, heq, by simpa [← hq] using hbefore⟩

theorem map_find?_eq_some_iff {q : α → Bool} (hq : ∀ y, q y = true ↔ p y) (g : α → β) (b : β) :
    (xs.find? q).map g = some b ↔ ∃ i x, FirstAt p xs i x ∧ b = g x := by
  rw [Option.map_eq_some_iff]
  simp only [find?_eq_some_iff hq]
  constructor
  · rintro ⟨x, ⟨i, hfirst⟩, rfl⟩
    exact ⟨i, x, hfirst, rfl⟩
  · rintro ⟨i, x, hfirst, rfl⟩
    exact ⟨x, ⟨i, hfirst⟩, rfl⟩

/-- A search that goes on past every element for which it does not hold ends at the first for
which it does. -/
theorem findSome?_eq_some_iff {f : α → Option β} (hf : ∀ y ∈ xs, f y = none ↔ ¬ p y) (b : β) :
    xs.findSome? f = some b ↔ ∃ i x, FirstAt p xs i x ∧ f x = some b := by
  rw [List.findSome?_eq_some_iff]
  constructor
  · rintro ⟨before, x, after, rfl, hx, hbefore⟩
    refine ⟨_, x, iff_append.mpr ⟨before, after, rfl, rfl, ?_, ?_⟩, hx⟩
    · by_contra hright
      rw [(hf x (by simp)).mpr hright] at hx
      cases hx
    · exact fun y hy => (hf y (by simp [hy])).mp (hbefore y hy)
  · rintro ⟨i, x, hfirst, hx⟩
    obtain ⟨before, after, rfl, _, _, hbefore⟩ := iff_append.mp hfirst
    exact ⟨before, x, after, rfl, hx, fun y hy => (hf y (by simp [hy])).mpr (hbefore y hy)⟩

/-- In a numbered list, the first such element carries its own place. -/
theorem zipIdx_iff {n : Nat} :
    FirstAt (fun r : α × Nat => p r.1) xs.zipIdx i (x, n) ↔ n = i ∧ FirstAt p xs i x := by
  constructor
  · rintro ⟨hfound, hp, hfirst⟩
    rw [List.getElem?_zipIdx, Option.map_eq_some_iff] at hfound
    obtain ⟨y, hy, heq⟩ := hfound
    simp only [Nat.zero_add, Prod.mk.injEq] at heq
    obtain ⟨rfl, rfl⟩ := heq
    refine ⟨rfl, hy, hp, fun j hj z hz => ?_⟩
    exact hfirst j hj (z, j) (by simp [List.getElem?_zipIdx, hz])
  · rintro ⟨rfl, hfound, hp, hfirst⟩
    refine ⟨by simp [List.getElem?_zipIdx, hfound], hp, ?_⟩
    rintro j hj ⟨z, m⟩ hz
    rw [List.getElem?_zipIdx, Option.map_eq_some_iff] at hz
    obtain ⟨y, hy, heq⟩ := hz
    obtain ⟨rfl, _⟩ := Prod.mk.inj heq
    exact hfirst j hj y hy

/-- What a search through a numbered list makes of the first such element and its place. -/
theorem map_find?_zipIdx_eq_some_iff {q : α × Nat → Bool} (hq : ∀ y j, q (y, j) = true ↔ p y)
    (g : α × Nat → β) (b : β) :
    (xs.zipIdx.find? q).map g = some b ↔ ∃ i x, FirstAt p xs i x ∧ b = g (x, i) := by
  rw [map_find?_eq_some_iff (p := fun r => p r.1) fun r => hq r.1 r.2]
  simp only [Prod.exists, zipIdx_iff]
  constructor
  · rintro ⟨i, x, _, ⟨rfl, hfirst⟩, rfl⟩
    exact ⟨_, x, hfirst, rfl⟩
  · rintro ⟨i, x, hfirst, rfl⟩
    exact ⟨i, x, i, ⟨rfl, hfirst⟩, rfl⟩

/-- Beside a list that is long enough, the first such element carries what stands at its
place there. -/
theorem zip_iff {ys : List β} (hlength : xs.length ≤ ys.length) {y : β} :
    FirstAt (fun r : α × β => p r.1) (xs.zip ys) i (x, y) ↔
      FirstAt p xs i x ∧ ys[i]? = some y := by
  constructor
  · rintro ⟨hfound, hp, hnone⟩
    obtain ⟨hx, hy⟩ := List.getElem?_zip_eq_some.mp hfound
    refine ⟨⟨hx, hp, fun j hj z hz => ?_⟩, hy⟩
    obtain ⟨hjx, _⟩ := List.getElem?_eq_some_iff.mp hz
    have hjy : ys[j]? = some ys[j] := List.getElem?_eq_getElem (by omega)
    exact hnone j hj (z, ys[j]) (List.getElem?_zip_eq_some.mpr ⟨hz, hjy⟩)
  · rintro ⟨⟨hfound, hp, hnone⟩, hy⟩
    refine ⟨List.getElem?_zip_eq_some.mpr ⟨hfound, hy⟩, hp, fun j hj z hz => ?_⟩
    exact hnone j hj z.1 (List.getElem?_zip_eq_some.mp hz).1

/-- Lists that go together element by element have their first places together. -/
theorem of_forall₂ {R : α → β → Prop} {q : β → Prop} {ys : List β} (h : List.Forall₂ R xs ys)
    (hpq : ∀ a b, R a b → (p a ↔ q b)) (hx : FirstAt p xs i x) :
    ∃ y, FirstAt q ys i y ∧ R x y := by
  obtain ⟨y, hy, hxy⟩ := exists_of_forall₂ h hx.found
  refine ⟨y, ⟨hy, (hpq x y hxy).mp hx.holds, fun j hj b hb hq => ?_⟩, hxy⟩
  obtain ⟨a, ha, hab⟩ := exists_of_forall₂ h.flip hb
  exact hx.none_before j hj a ha ((hpq a b hab).mpr hq)

/-- A list of steps ends with the error of the first step that fails. -/
theorem mapM_eq_error_iff {ε : Type} {f : α → Except ε β} {e : ε} :
    xs.mapM f = .error e ↔
      ∃ i x, FirstAt (fun y => ∃ d, f y = .error d) xs i x ∧ f x = .error e := by
  induction xs with
  | nil =>
    refine iff_of_false (fun h => by cases h) ?_
    rintro ⟨i, x, hfirst, _⟩
    cases hfirst.found
  | cons y rest ih =>
    simp only [cons_iff]
    rw [List.mapM_cons]
    cases hy : f y with
    | error d =>
      change Except.error d = Except.error e ↔ _
      constructor
      · intro h
        cases h
        exact ⟨0, y, .inl ⟨⟨_, rfl⟩, rfl, rfl⟩, hy⟩
      · rintro ⟨i, x, ⟨_, _, rfl⟩ | ⟨hfine, _⟩, hx⟩
        · cases hy.symm.trans hx
          rfl
        · exact absurd ⟨d, rfl⟩ hfine
    | ok b =>
      have hrest : (do
          let c ← Except.ok b
          let cs ← rest.mapM f
          pure (c :: cs)) = Except.error e ↔ rest.mapM f = .error e := by
        cases rest.mapM f with
        | error d => exact Iff.rfl
        | ok cs => exact iff_of_false (fun h => by cases h) (fun h => by cases h)
      rw [hrest, ih]
      constructor
      · rintro ⟨i, x, hfirst, hx⟩
        exact ⟨i + 1, x, .inr ⟨by simp, i, rfl, hfirst⟩, hx⟩
      · rintro ⟨_, x, ⟨⟨d, hd⟩, _⟩ | ⟨_, i, rfl, hfirst⟩, hx⟩
        · cases hd
        · exact ⟨i, x, hfirst, hx⟩

theorem congr {q : α → Prop} (h : ∀ y ∈ xs, p y ↔ q y) :
    FirstAt p xs i x ↔ FirstAt q xs i x := by
  constructor
  · rintro ⟨hfound, hp, hnone⟩
    exact ⟨hfound, (h x (List.mem_of_getElem? hfound)).mp hp, fun j hj y hy hq =>
      hnone j hj y hy ((h y (List.mem_of_getElem? hy)).mpr hq)⟩
  · rintro ⟨hfound, hq, hnone⟩
    exact ⟨hfound, (h x (List.mem_of_getElem? hfound)).mpr hq, fun j hj y hy hp =>
      hnone j hj y hy ((h y (List.mem_of_getElem? hy)).mp hp)⟩

end FirstAt

end DecaySearch
