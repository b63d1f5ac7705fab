-- A look-up inverts the binning of a table: it finds the bin whose edges enclose a
-- value, only a value outside all bins has none, and what is then read is the cell of
-- that bin.
import DecaySearch.Proofs.CutTables

namespace DecaySearch

namespace CutTable

/-! ## The edges that a value reaches -/

/-- The place where edges stop being reached by a value: it reaches those before the
place, and no other. A binary search for the place relies on there being one. -/
def ReachesUpTo (edges : List Float) (x : Float) (n : Nat) : Prop :=
  n ≤ edges.length ∧ ∀ (k : Nat) (h : k < edges.length), edges[k] ≤ x ↔ k < n

theorem reachesUpTo_unique {edges : List Float} {x : Float} {m n : Nat}
    (hm : ReachesUpTo edges x m) (hn : ReachesUpTo edges x n) : m = n := by
  obtain ⟨hmlen, hmle⟩ := hm
  obtain ⟨hnlen, hnle⟩ := hn
  rcases Nat.lt_trichotomy m n with hlt | heq | hgt
  · have hreached := (hnle m (by omega)).mpr hlt
    exact absurd ((hmle m (by omega)).mp hreached) (Nat.lt_irrefl m)
  · exact heq
  · have hreached := (hmle n (by omega)).mpr hgt
    exact absurd ((hnle n (by omega)).mp hreached) (Nat.lt_irrefl n)

theorem edge_le_of_le {t : CutTable} (hw : t.WellFormed) {i j : Nat} (hij : i ≤ j)
    (hj : j < t.edges.length) : t.edges[i] ≤ t.edges[j] := by
  have h := edge_le_edge hw i (j - i) (by omega)
  simpa only [Nat.add_sub_cancel' hij] using h

/-- The reached edges of a table come first, since the edges increase. -/
theorem reachesUpTo_takeWhile {t : CutTable} (hw : t.WellFormed) (x : Float) :
    ReachesUpTo t.edges x (t.edges.takeWhile (· ≤ x)).length := by
  refine ⟨(List.takeWhile_sublist _).length_le, ?_⟩
  intro k hk
  rw [List.takeWhile_eq_take_findIdx_not, List.length_take]
  obtain ⟨n, hn⟩ : ∃ n, t.edges.findIdx (fun e => !decide (e ≤ x)) = n := ⟨_, rfl⟩
  rw [hn]
  constructor
  · intro hreached
    by_contra hpast
    have hlen : n < t.edges.length := by omega
    have hstop : ¬ t.edges[n] ≤ x := by simpa using ((List.findIdx_eq hlen).mp hn).1
    exact hstop (FloatOrder.le_trans (edge_le_of_le hw (by omega) hk) hreached)
  · intro hlt
    have hk' : k < t.edges.findIdx (fun e => !decide (e ≤ x)) := by omega
    simpa using List.not_of_lt_findIdx hk'

/-! ## Values without a bin -/

/-- Only a value that is NaN or lies outside the outer edges has no bin. -/
theorem covers_eq_false_iff {t : CutTable} (hw : t.WellFormed) (x : Float) :
    t.covers x = false ↔ x.isNaN = true ∨
      (∃ first, t.edges.head? = some first ∧ x < first) ∨
      ∃ last, t.edges.getLast? = some last ∧ last ≤ x := by
  have h2 := hw.two_edges
  have hfirst : t.edges.head? = some t.edges[0] := by
    rw [List.head?_eq_getElem?, List.getElem?_eq_getElem (by omega)]
  have hlast : t.edges.getLast? = some t.edges[t.edges.length - 1] := by
    rw [List.getLast?_eq_getElem?, List.getElem?_eq_getElem (by omega)]
  have hnan : ∀ (k : Nat) (hk : k < t.edges.length), t.edges[k].isNaN = false := fun k hk =>
    FloatOrder.isNaN_of_isFinite (hw.finite_edges _ (List.getElem_mem hk))
  rw [← Bool.not_eq_true, covers_iff h2, hfirst, hlast]
  simp only [Option.some.injEq, exists_eq_left']
  constructor
  · intro hout
    by_cases hx : x.isNaN = true
    · exact Or.inl hx
    · right
      by_cases hlow : t.edges[0] ≤ x
      · right
        exact FloatOrder.le_of_not_lt (hnan _ _) (by simpa using hx) fun hlt => hout ⟨hlow, hlt⟩
      · left
        exact FloatOrder.lt_of_not_le (by simpa using hx) (hnan _ _) hlow
  · rintro (hx | hlow | hhigh) ⟨hge, hlt⟩
    · rw [(FloatOrder.isNaN_of_le hge).2] at hx
      cases hx
    · exact FloatOrder.not_le_of_lt hlow hge
    · exact FloatOrder.not_lt_of_le hhigh hlt

theorem findBin_eq_none_iff_covers (t : CutTable) (x : Float) :
    t.findBin x = none ↔ t.covers x = false := by
  unfold findBin
  cases t.covers x <;> simp

/-! ## Cells -/

/-- Each bin has a value for each label, and reading the label gives it. -/
theorem get_of_lt_bins {t : CutTable} (hw : t.WellFormed) {i k : Nat} {v : CutVariable}
    (hi : i < t.bins) (hk : t.labels[k]? = some v) :
    ∃ row value, t.rows[i]? = some row ∧ row[k]? = some value ∧ t.get ⟨i⟩ v = .ok value := by
  obtain ⟨hklen, hlabel⟩ := List.getElem?_eq_some_iff.mp hk
  have hrow : i < t.rows.length := by
    rw [hw.row_count]
    exact hi
  have hcell : k < t.rows[i].length := by
    rw [hw.row_length _ (List.getElem_mem hrow)]
    exact hklen
  -- The labels are distinct, so the column of `v` is the one where it was found.
  have hidx : t.labels.idxOf v = k := by
    rw [← hlabel]
    exact hw.distinct_labels.idxOf_getElem k hklen
  have hhas : t.has v = true := by
    simpa [has] using List.mem_of_getElem? hk
  refine ⟨t.rows[i], t.rows[i][k], List.getElem?_eq_getElem hrow,
    List.getElem?_eq_getElem hcell, ?_⟩
  unfold get
  rw [column?_of_has hhas, hidx]
  simp [List.getElem?_eq_getElem hrow, List.getElem?_eq_getElem hcell]

end CutTable

/-- A look-up inverts the binning of every table that can be built. A value is found in
bin `i` exactly when it lies between edges `i` and `i + 1`, which holds for at most one `i`,
and it has no bin exactly when it is NaN or outside the outer edges. The edges that a value
reaches come first, and a value between the outer edges reaches at least one, so the last
of them opens its bin. What is read under a label is the value of the row of the bin in the
column of the label. -/
theorem a_look_up_inverts_the_binning {edges : List Float} {labels : List CutVariable}
    {rows : List (List Float)} {required : List CutVariable} {t : CutTable}
    (h : CutTable.make edges labels rows required = .ok t) (pt : Float) :
    (∀ bin, t.findBin pt = some bin ↔
      bin.index < t.bins ∧ ∃ low high, edges[bin.index]? = some low ∧
        edges[bin.index + 1]? = some high ∧ low ≤ pt ∧ pt < high) ∧
    (t.findBin pt = none ↔
      pt.isNaN = true ∨ (∃ first, edges.head? = some first ∧ pt < first) ∨
        ∃ last, edges.getLast? = some last ∧ last ≤ pt) ∧
    (∀ i j, t.InBin i pt → t.InBin j pt → i = j) ∧
    (∃ n, (∀ m, CutTable.ReachesUpTo edges pt m ↔ m = n) ∧
      (t.covers pt = true → 0 < n ∧ t.findBin pt = some ⟨n - 1⟩)) ∧
    ∀ (i k : Nat) (v : CutVariable), i < t.bins → labels[k]? = some v →
      ∃ row value, rows[i]? = some row ∧ row[k]? = some value ∧ t.get ⟨i⟩ v = .ok value := by
  have hw := (CutTable.make_wellFormed h).1
  have hfind := CutTable.findBin_eq_some_iff hw pt
  have hreaches := CutTable.reachesUpTo_takeWhile hw pt
  have hnone := (CutTable.findBin_eq_none_iff_covers t pt).trans
    (CutTable.covers_eq_false_iff hw pt)
  have hget := fun i k v => CutTable.get_of_lt_bins hw (i := i) (k := k) (v := v)
  obtain rfl := CutTable.make_eq_ok h
  refine ⟨?_, hnone, ?_, ?_, hget⟩
  · intro bin
    rw [hfind]
    constructor
    · intro hin
      refine ⟨?_, hin⟩
      have := CutTable.lt_length_rows_of_inBin hw hin
      rw [hw.row_count] at this
      exact this
    · exact And.right
  · intro i j hi hj
    have hsame := ((hfind ⟨i⟩).mpr hi).symm.trans ((hfind ⟨j⟩).mpr hj)
    simpa using hsame
  · refine ⟨_, fun m => ⟨fun hm => CutTable.reachesUpTo_unique hm hreaches, ?_⟩, ?_⟩
    · rintro rfl
      exact hreaches
    · intro hcovers
      refine ⟨?_, if_pos hcovers⟩
      have h2 := hw.two_edges
      have hfirst := ((CutTable.covers_iff h2 pt).mp hcovers).1
      exact (hreaches.2 0 (by omega)).mp hfirst

namespace Sample

/-- Two bins, with a mass window in each. -/
def massEdges : List Float := [0, 5, 20]

def massRows : List (List Float) := [[1.5, 2], [1.75, 2.25]]

def massTable : CutTable := ⟨massEdges, [.massMin, .massMax], massRows⟩

end Sample

/-- A value on an inner edge belongs to the bin above it. -/
theorem a_value_on_an_edge_opens_the_next_bin :
    CutTable.make Sample.massEdges [.massMin, .massMax] Sample.massRows [.massMax] =
        .ok Sample.massTable ∧
      Sample.massTable.findBin 5 = some ⟨1⟩ ∧
      ∃ row value, Sample.massRows[1]? = some row ∧ row[1]? = some value ∧
        Sample.massTable.get ⟨1⟩ .massMax = .ok value := by
  have hmake : CutTable.make Sample.massEdges [.massMin, .massMax] Sample.massRows [.massMax] =
      .ok Sample.massTable := by decide +kernel
  obtain ⟨hfind, _, _, _, hget⟩ := a_look_up_inverts_the_binning hmake 5
  refine ⟨hmake, (hfind ⟨1⟩).mpr ⟨by decide, 5, 20, rfl, rfl, by decide, by decide⟩, ?_⟩
  exact hget 1 1 .massMax (by decide) rfl

end DecaySearch
