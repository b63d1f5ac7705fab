-- What the checks of a cut table guarantee, and what a look-up finds in a table
-- that has passed them.
import DecaySearch.CutTable
import DecaySearch.Proofs.FloatOrder

namespace DecaySearch.CutTable

/-! ## Well-formed tables -/

/-- A table with one row for each bin and one finite value for each label. -/
structure WellFormed (t : CutTable) : Prop where
  two_edges : 2 ≤ t.edges.length
  finite_edges : ∀ x ∈ t.edges, x.isFinite = true
  increasing : ∀ (i : Nat) (h : i + 1 < t.edges.length), t.edges[i] < t.edges[i + 1]
  row_count : t.rows.length = t.edges.length - 1
  row_length : ∀ row ∈ t.rows, row.length = t.labels.length
  finite_values : ∀ row ∈ t.rows, ∀ x ∈ row, x.isFinite = true
  distinct_labels : t.labels.Nodup

theorem find?_zipIdx_eq_none {α : Type} (xs : List α) (p : α × Nat → Bool) (q : α → Bool)
    (h : ∀ x i, p (x, i) = q x) :
    xs.zipIdx.find? p = none ↔ ∀ x ∈ xs, q x = false := by
  rw [List.find?_eq_none]
  constructor
  · intro hn x hx
    obtain ⟨i, hi⟩ := List.getElem?_of_mem hx
    have := hn (x, i) (List.mk_mem_zipIdx_iff_getElem?.mpr hi)
    rw [h] at this
    simpa using this
  · rintro hn ⟨x, i⟩ hp
    rw [h, hn x (List.fst_mem_of_mem_zipIdx hp)]
    simp

theorem nonFiniteEdge?_eq_none_iff (edges : List Float) :
    nonFiniteEdge? edges = none ↔ ∀ x ∈ edges, x.isFinite = true := by
  unfold nonFiniteEdge?
  rw [Option.map_eq_none_iff, find?_zipIdx_eq_none _ _ (fun x => !x.isFinite) (fun _ _ => rfl)]
  simp

theorem nonIncreasingEdge?_eq_none_iff (edges : List Float) :
    nonIncreasingEdge? edges = none ↔
      ∀ (i : Nat) (h : i + 1 < edges.length), ¬ edges[i + 1] ≤ edges[i] := by
  unfold nonIncreasingEdge?
  rw [Option.map_eq_none_iff,
    find?_zipIdx_eq_none _ _ (fun (x : Float × Float) => x.2 ≤ x.1) (fun _ _ => rfl)]
  constructor
  · intro hn i hi
    have hz : (edges[i], edges[i + 1]) ∈ edges.zip edges.tail := by
      rw [List.mem_iff_getElem]
      refine ⟨i, by simp; omega, by simp⟩
    simpa using hn _ hz
  · rintro hn ⟨x, y⟩ hz
    obtain ⟨i, hi, hxy⟩ := List.mem_iff_getElem.mp hz
    simp only [List.length_zip, List.length_tail] at hi
    simp only [List.getElem_zip, List.getElem_tail, Prod.mk.injEq] at hxy
    rw [← hxy.1, ← hxy.2]
    simpa using hn i (by omega)

theorem raggedRow?_eq_none_iff (labels : List CutVariable) (rows : List (List Float)) :
    raggedRow? labels rows = none ↔ ∀ row ∈ rows, row.length = labels.length := by
  unfold raggedRow?
  rw [Option.map_eq_none_iff,
    find?_zipIdx_eq_none _ _ (fun row => row.length ≠ labels.length) (fun _ _ => rfl)]
  simp

theorem nonFiniteValue?_eq_none_iff (labels : List CutVariable) (rows : List (List Float))
    (hlen : ∀ row ∈ rows, row.length = labels.length) :
    nonFiniteValue? labels rows = none ↔ ∀ row ∈ rows, ∀ x ∈ row, x.isFinite = true := by
  unfold nonFiniteValue?
  rw [List.findSome?_eq_none_iff]
  constructor
  · intro hn row hrow x hx
    obtain ⟨i, hi⟩ := List.getElem?_of_mem hrow
    have h := hn (row, i) (List.mk_mem_zipIdx_iff_getElem?.mpr hi)
    rw [Option.map_eq_none_iff, List.find?_eq_none] at h
    obtain ⟨k, hk, rfl⟩ := List.mem_iff_getElem.mp hx
    have hk' : k < labels.length := by rw [← hlen row hrow]; exact hk
    have hz : (row[k], labels[k]) ∈ row.zip labels := by
      rw [List.mem_iff_getElem]
      exact ⟨k, by simp; omega, by simp⟩
    simpa using h _ hz
  · rintro hn ⟨row, i⟩ hp
    have hrow := List.fst_mem_of_mem_zipIdx hp
    rw [Option.map_eq_none_iff, List.find?_eq_none]
    rintro ⟨x, v⟩ hz
    simpa using hn row hrow x (List.of_mem_zip hz).1

theorem firstRepeated?_eq_none_iff {α : Type} [DecidableEq α] (seen xs : List α) :
    firstRepeated? seen xs = none ↔ xs.Nodup ∧ ∀ x ∈ xs, x ∉ seen := by
  induction xs generalizing seen with
  | nil => simp [firstRepeated?]
  | cons a rest ih =>
    unfold firstRepeated?
    split
    · rename_i h
      simp [h]
    · rename_i h
      rw [ih, List.nodup_cons]
      simp only [List.mem_cons, not_or, forall_eq_or_imp]
      constructor
      · rintro ⟨h1, h2⟩
        exact ⟨⟨fun ha => (h2 a ha).1 rfl, h1⟩, h, fun x hx => (h2 x hx).2⟩
      · rintro ⟨⟨h1, h2⟩, _, h3⟩
        exact ⟨h2, fun x hx => ⟨fun hxa => h1 (hxa ▸ hx), h3 x hx⟩⟩

/-- Edges that are finite increase exactly when none fails to exceed the one
before it. -/
theorem increasing_iff {edges : List Float} (hf : ∀ x ∈ edges, x.isFinite = true) :
    (∀ (i : Nat) (h : i + 1 < edges.length), ¬ edges[i + 1] ≤ edges[i]) ↔
      ∀ (i : Nat) (h : i + 1 < edges.length), edges[i] < edges[i + 1] := by
  constructor
  · intro hn i hi
    refine FloatOrder.lt_of_not_le ?_ ?_ (hn i hi)
    · exact FloatOrder.isNaN_of_isFinite (hf _ (List.getElem_mem _))
    · exact FloatOrder.isNaN_of_isFinite (hf _ (List.getElem_mem _))
  · intro hn i hi
    exact FloatOrder.not_le_of_lt (hn i hi)

/-- A table has no defect exactly when it is well-formed and has the columns that
are asked for. -/
theorem defect?_eq_none_iff (edges : List Float) (labels : List CutVariable)
    (rows : List (List Float)) (required : List CutVariable) :
    defect? edges labels rows required = none ↔
      WellFormed ⟨edges, labels, rows⟩ ∧ ∀ v ∈ required, v ∈ labels := by
  have hcol : required.find? (· ∉ labels) = none ↔ ∀ v ∈ required, v ∈ labels := by
    simp
  unfold defect?
  split
  · rename_i h
    simp only [reduceCtorEq, false_iff]
    rintro ⟨hw, _⟩
    exact absurd hw.two_edges (by simpa using h)
  · rename_i h
    simp only [Option.orElse_eq_orElse, Option.orElse_eq_or, Option.or_eq_none_iff,
      Option.map_eq_none_iff, nonFiniteEdge?_eq_none_iff, nonIncreasingEdge?_eq_none_iff,
      raggedRow?_eq_none_iff, firstRepeated?_eq_none_iff, hcol, ite_eq_right_iff, reduceCtorEq,
      imp_false, ne_eq, Decidable.not_not]
    constructor
    · rintro ⟨h1, h2, h3, h4, h5, h6, h7⟩
      refine ⟨⟨Nat.le_of_not_lt h, h1, (increasing_iff h1).mp h2, h3, h4, ?_, h6.1⟩, h7⟩
      exact (nonFiniteValue?_eq_none_iff labels rows h4).mp h5
    · rintro ⟨hw, h7⟩
      refine ⟨hw.finite_edges, (increasing_iff hw.finite_edges).mpr hw.increasing, hw.row_count,
        hw.row_length, ?_, ⟨hw.distinct_labels, by simp⟩, h7⟩
      exact (nonFiniteValue?_eq_none_iff labels rows hw.row_length).mpr hw.finite_values

/-- What the construction returns is well-formed and has every required column. -/
theorem make_wellFormed {edges : List Float} {labels : List CutVariable}
    {rows : List (List Float)} {required : List CutVariable} {t : CutTable}
    (h : make edges labels rows required = .ok t) :
    t.WellFormed ∧ ∀ v ∈ required, t.has v = true := by
  unfold make at h
  rcases hd : defect? edges labels rows required with _ | e
  · rw [hd] at h
    cases h
    obtain ⟨hw, hr⟩ := (defect?_eq_none_iff _ _ _ _).mp hd
    exact ⟨hw, fun v hv => by simpa [has] using hr v hv⟩
  · rw [hd] at h
    cases h

/-- The table holds what it was built from. -/
theorem make_eq_ok {edges : List Float} {labels : List CutVariable} {rows : List (List Float)}
    {required : List CutVariable} {t : CutTable} (h : make edges labels rows required = .ok t) :
    t = ⟨edges, labels, rows⟩ := by
  unfold make at h
  split at h
  · cases h
  · cases h
    rfl

/-! ## Looking up a bin -/

/-- A value lies in a bin: not below its lower edge, and below its upper one. -/
def InBin (t : CutTable) (i : Nat) (x : Float) : Prop :=
  ∃ low high, t.edges[i]? = some low ∧ t.edges[i + 1]? = some high ∧ low ≤ x ∧ x < high

theorem edge_le_edge {t : CutTable} (hw : t.WellFormed) (i k : Nat)
    (h : i + k < t.edges.length) : t.edges[i] ≤ t.edges[i + k] := by
  induction k with
  | zero => exact FloatOrder.le_refl (FloatOrder.isNaN_of_isFinite
      (hw.finite_edges _ (List.getElem_mem _)))
  | succ k ih =>
    have hstep : t.edges[i + k] < t.edges[i + (k + 1)] := hw.increasing (i + k) (by omega)
    exact FloatOrder.le_trans (ih (by omega)) (FloatOrder.le_of_lt hstep)

theorem covers_iff {t : CutTable} (h2 : 2 ≤ t.edges.length) (x : Float) :
    t.covers x = true ↔ t.edges[0] ≤ x ∧ x < t.edges[t.edges.length - 1] := by
  unfold covers
  rw [List.head?_eq_getElem?, List.getLast?_eq_getElem?, List.getElem?_eq_getElem (by omega),
    List.getElem?_eq_getElem (by omega)]
  simp

/-- The edges that do not exceed a value come first, and there are `i + 1` of them
for a value in bin `i`. -/
theorem length_takeWhile_of_inBin {t : CutTable} (hw : t.WellFormed) {i : Nat} {x : Float}
    (h : t.InBin i x) : (t.edges.takeWhile (· ≤ x)).length = i + 1 := by
  obtain ⟨low, high, hl, hh, hle, hlt⟩ := h
  obtain ⟨hi, rfl⟩ := List.getElem?_eq_some_iff.mp hl
  obtain ⟨hi1, rfl⟩ := List.getElem?_eq_some_iff.mp hh
  have hidx : t.edges.findIdx (fun e => !decide (e ≤ x)) = i + 1 := by
    rw [List.findIdx_eq hi1]
    refine ⟨by simpa using FloatOrder.not_le_of_lt hlt, fun j hj => ?_⟩
    have hji : t.edges[j] ≤ t.edges[j + (i - j)] := edge_le_edge hw j (i - j) (by omega)
    have hij : t.edges[j + (i - j)] = t.edges[i] := by congr 1; omega
    simpa using FloatOrder.le_trans (hij ▸ hji) hle
  rw [List.takeWhile_eq_take_findIdx_not, hidx, List.length_take]
  omega

theorem covers_of_inBin {t : CutTable} (hw : t.WellFormed) {i : Nat} {x : Float}
    (h : t.InBin i x) : t.covers x = true := by
  obtain ⟨low, high, hl, hh, hle, hlt⟩ := h
  obtain ⟨hi, rfl⟩ := List.getElem?_eq_some_iff.mp hl
  obtain ⟨hi1, rfl⟩ := List.getElem?_eq_some_iff.mp hh
  rw [covers_iff hw.two_edges]
  constructor
  · have h0 := edge_le_edge hw 0 i (by omega)
    simp only [Nat.zero_add] at h0
    exact FloatOrder.le_trans h0 hle
  · have h1 := edge_le_edge hw (i + 1) (t.edges.length - 1 - (i + 1)) (by omega)
    have hsum : i + 1 + (t.edges.length - 1 - (i + 1)) = t.edges.length - 1 := by omega
    simp only [hsum] at h1
    exact FloatOrder.lt_of_lt_of_le hlt h1

/-- Between the outer edges, the last edge that does not exceed a value opens its
bin. -/
theorem inBin_of_covers {t : CutTable} (hw : t.WellFormed) {x : Float}
    (h : t.covers x = true) : t.InBin ((t.edges.takeWhile (· ≤ x)).length - 1) x := by
  obtain ⟨hfirst, hlast⟩ := (covers_iff hw.two_edges x).mp h
  have h2 := hw.two_edges
  rw [List.takeWhile_eq_take_findIdx_not, List.length_take]
  obtain ⟨k, hk⟩ : ∃ k, t.edges.findIdx (fun e => !decide (e ≤ x)) = k := ⟨_, rfl⟩
  have hlen : k < t.edges.length := by
    rw [← hk]
    apply List.findIdx_lt_length_of_exists
    refine ⟨t.edges[t.edges.length - 1], List.getElem_mem _, ?_⟩
    simpa using FloatOrder.not_le_of_lt hlast
  obtain ⟨habove, hbelow⟩ := (List.findIdx_eq hlen).mp hk
  have hk0 : 0 < k := by
    rcases Nat.eq_zero_or_pos k with rfl | h0
    · simp [hfirst] at habove
    · exact h0
  have hmin : min k t.edges.length - 1 = k - 1 := by omega
  rw [hk, hmin]
  refine ⟨t.edges[k - 1], t.edges[k], ?_, ?_, ?_, ?_⟩
  · exact List.getElem?_eq_getElem (by omega)
  · rw [Nat.sub_add_cancel hk0]
    exact List.getElem?_eq_getElem hlen
  · simpa using hbelow (k - 1) (by omega)
  · refine FloatOrder.lt_of_not_le (FloatOrder.isNaN_of_le hfirst).2 ?_ (by simpa using habove)
    exact FloatOrder.isNaN_of_isFinite (hw.finite_edges _ (List.getElem_mem _))

/-- A look-up finds exactly the bin that a value lies in. -/
theorem findBin_eq_some_iff {t : CutTable} (hw : t.WellFormed) (x : Float) (bin : PtBin) :
    t.findBin x = some bin ↔ t.InBin bin.index x := by
  unfold findBin
  constructor
  · intro h
    split at h
    · rename_i hc
      cases h
      exact inBin_of_covers hw hc
    · cases h
  · intro h
    rw [if_pos (covers_of_inBin hw h), length_takeWhile_of_inBin hw h]
    simp

theorem findBin_eq_none_iff {t : CutTable} (hw : t.WellFormed) (x : Float) :
    t.findBin x = none ↔ ∀ i, ¬ t.InBin i x := by
  rw [Option.eq_none_iff_forall_ne_some]
  constructor
  · intro h i hi
    exact h ⟨i⟩ ((findBin_eq_some_iff hw x ⟨i⟩).mpr hi)
  · intro h bin hb
    exact h bin.index ((findBin_eq_some_iff hw x bin).mp hb)

/-! ## Reading a threshold -/

/-- The value of row `i` under a label. -/
def threshold (t : CutTable) (i : Nat) (v : CutVariable) : Float :=
  (t.rows.getD i []).getD (t.labels.idxOf v) 0

theorem column?_of_has {t : CutTable} {v : CutVariable} (h : t.has v = true) :
    t.column? v = some (t.labels.idxOf v) := by
  have hv : v ∈ t.labels := by simpa [has] using h
  unfold column? List.idxOf?
  rw [List.findIdx?_eq_some_iff_findIdx_eq]
  exact ⟨List.idxOf_lt_length_of_mem hv, rfl⟩

theorem lt_length_rows_of_inBin {t : CutTable} (hw : t.WellFormed) {i : Nat} {x : Float}
    (h : t.InBin i x) : i < t.rows.length := by
  obtain ⟨_, _, _, hh, _⟩ := h
  obtain ⟨hi1, _⟩ := List.getElem?_eq_some_iff.mp hh
  rw [hw.row_count]
  omega

theorem getElem_idxOf_row {t : CutTable} (hw : t.WellFormed) {v : CutVariable}
    (hv : t.has v = true) {row : List Float} (hrow : row ∈ t.rows) :
    t.labels.idxOf v < row.length := by
  rw [hw.row_length row hrow]
  exact List.idxOf_lt_length_of_mem (by simpa [has] using hv)

/-- Reading a declared column in a bin that was found never fails. -/
theorem get_of_inBin {t : CutTable} (hw : t.WellFormed) {v : CutVariable} (hv : t.has v = true)
    {bin : PtBin} {x : Float} (h : t.InBin bin.index x) :
    t.get bin v = .ok (t.threshold bin.index v) := by
  have hi := lt_length_rows_of_inBin hw h
  have hk := getElem_idxOf_row hw hv (List.getElem_mem hi)
  unfold get threshold
  rw [column?_of_has hv]
  simp [List.getElem?_eq_getElem hi, List.getElem?_eq_getElem hk]

theorem isFinite_threshold {t : CutTable} (hw : t.WellFormed) {v : CutVariable}
    (hv : t.has v = true) {i : Nat} {x : Float} (h : t.InBin i x) :
    (t.threshold i v).isFinite = true := by
  have hi := lt_length_rows_of_inBin hw h
  have hk := getElem_idxOf_row hw hv (List.getElem_mem hi)
  unfold threshold
  apply hw.finite_values _ (List.getElem_mem hi)
  simp [List.getElem?_eq_getElem hi, List.getElem?_eq_getElem hk]

end DecaySearch.CutTable
