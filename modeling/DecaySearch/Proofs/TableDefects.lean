-- Which tables are refused, and for what. A written table has to meet nine requirements,
-- which are checked in a fixed order. It is refused exactly when it breaks one, and then
-- the first broken one is reported, at the first place that breaks it.
import DecaySearch.Proofs.BinLookup
import DecaySearch.Proofs.FirstPlaces

namespace DecaySearch

/-! ## Single checks -/

namespace CutTable

theorem nonFiniteEdge?_eq_some_iff (edges : List Float) (e : CutTableError) :
    nonFiniteEdge? edges = some e ↔
      ∃ i x, FirstAt (fun y => y.isFinite = false) edges i x ∧ e = .nonFiniteEdge i x :=
  FirstAt.map_find?_zipIdx_eq_some_iff (fun y _ => by simp) _ e

theorem nonIncreasingEdge?_eq_some_iff (edges : List Float) (e : CutTableError) :
    nonIncreasingEdge? edges = some e ↔
      ∃ i low high, FirstAt (fun pair : Float × Float => pair.2 ≤ pair.1)
        (edges.zip edges.tail) i (low, high) ∧ e = .nonIncreasingEdges (i + 1) low high := by
  unfold nonIncreasingEdge?
  rw [FirstAt.map_find?_zipIdx_eq_some_iff (p := fun pair : Float × Float => pair.2 ≤ pair.1)
    fun _ _ => by simp]
  simp only [Prod.exists]

theorem raggedRow?_eq_some_iff (labels : List CutVariable) (rows : List (List Float))
    (e : CutTableError) :
    raggedRow? labels rows = some e ↔
      ∃ i row, FirstAt (fun r => r.length ≠ labels.length) rows i row ∧
        e = .rowLength i row.length labels.length :=
  FirstAt.map_find?_zipIdx_eq_some_iff (fun y _ => by simp) _ e

/-- Within a row, a value and its label stand at one place. -/
theorem nonFiniteCell?_eq_some_iff {labels : List CutVariable} {row : List Float}
    (hlength : row.length = labels.length) (i : Nat) (e : CutTableError) :
    ((row.zip labels).find? fun (value, _) => !value.isFinite).map
        (fun (_, label) => CutTableError.nonFiniteValue i label) = some e ↔
      ∃ k x v, FirstAt (fun y => y.isFinite = false) row k x ∧ labels[k]? = some v ∧
        e = .nonFiniteValue i v := by
  rw [FirstAt.map_find?_eq_some_iff (p := fun r => r.1.isFinite = false) fun r => by simp]
  simp only [Prod.exists, FirstAt.zip_iff (p := fun y : Float => y.isFinite = false)
    (Nat.le_of_eq hlength), and_assoc]

theorem nonFiniteValue?_eq_some_iff {labels : List CutVariable} {rows : List (List Float)}
    (hlength : ∀ row ∈ rows, row.length = labels.length) (e : CutTableError) :
    nonFiniteValue? labels rows = some e ↔
      ∃ i row k x v, FirstAt (fun r => ∃ y ∈ r, y.isFinite = false) rows i row ∧
        FirstAt (fun y => y.isFinite = false) row k x ∧ labels[k]? = some v ∧
        e = .nonFiniteValue i v := by
  have hnumbered : ∀ i row n,
      FirstAt (fun q : List Float × Nat => ∃ y ∈ q.1, y.isFinite = false) rows.zipIdx i (row, n) ↔
        n = i ∧ FirstAt (fun r => ∃ y ∈ r, y.isFinite = false) rows i row := fun i row n =>
    FirstAt.zipIdx_iff (p := fun r : List Float => ∃ y ∈ r, y.isFinite = false)
  unfold nonFiniteValue?
  rw [FirstAt.findSome?_eq_some_iff (p := fun q => ∃ y ∈ q.1, y.isFinite = false)]
  · constructor
    · rintro ⟨i, ⟨row, n⟩, hfirst, hcell⟩
      obtain ⟨rfl, hrow⟩ := (hnumbered i row n).mp hfirst
      have hmem := List.mem_of_getElem? hrow.found
      obtain ⟨k, x, v, hx, hv, rfl⟩ := (nonFiniteCell?_eq_some_iff (hlength row hmem) n e).mp hcell
      exact ⟨n, row, k, x, v, hrow, hx, hv, rfl⟩
    · rintro ⟨i, row, k, x, v, hrow, hx, hv, rfl⟩
      have hmem := List.mem_of_getElem? hrow.found
      exact ⟨i, (row, i), (hnumbered i row i).mpr ⟨rfl, hrow⟩,
        (nonFiniteCell?_eq_some_iff (hlength row hmem) i _).mpr ⟨k, x, v, hx, hv, rfl⟩⟩
  · rintro ⟨row, n⟩ hmem
    have hrow := hlength row (List.fst_mem_of_mem_zipIdx hmem)
    rw [Option.map_eq_none_iff, List.find?_eq_none]
    constructor
    · rintro hnone ⟨y, hy, hwrong⟩
      rw [← List.map_fst_zip (Nat.le_of_eq hrow)] at hy
      obtain ⟨q, hq, rfl⟩ := List.mem_map.mp hy
      simpa [hwrong] using hnone q hq
    · rintro hnone ⟨y, v⟩ hq
      simpa using fun hwrong => hnone ⟨y, (List.of_mem_zip hq).1, hwrong⟩

theorem firstRepeated?_eq_some_iff {α : Type} [DecidableEq α] (seen xs : List α) (a : α) :
    firstRepeated? seen xs = some a ↔
      ∃ k, xs[k]? = some a ∧ (a ∈ seen ∨ a ∈ xs.take k) ∧ (xs.take k).Nodup ∧
        ∀ x ∈ xs.take k, x ∉ seen := by
  induction xs generalizing seen with
  | nil => simp [firstRepeated?]
  | cons head rest ih =>
    unfold firstRepeated?
    split
    · rename_i hseen
      constructor
      · rintro ⟨⟩
        exact ⟨0, rfl, Or.inl hseen, by simp, by simp⟩
      · rintro ⟨k, hk, _, _, hnew⟩
        cases k with
        | zero => exact hk
        | succ k => exact absurd hseen (hnew head (by simp))
    · rename_i hnew
      rw [ih]
      constructor
      · rintro ⟨k, hk, hrepeated, hdistinct, hbefore⟩
        simp only [List.mem_cons, not_or] at hbefore hrepeated
        refine ⟨k + 1, by simpa using hk, ?_, ?_, ?_⟩
        · simp only [List.take_succ_cons, List.mem_cons]
          tauto
        · rw [List.take_succ_cons, List.nodup_cons]
          exact ⟨fun hmem => (hbefore head hmem).1 rfl, hdistinct⟩
        · simp only [List.take_succ_cons, List.forall_mem_cons]
          exact ⟨hnew, fun x hx => (hbefore x hx).2⟩
      · rintro ⟨k, hk, hrepeated, hdistinct, hbefore⟩
        cases k with
        | zero =>
          obtain rfl : head = a := by simpa using hk
          simp [hnew] at hrepeated
        | succ k =>
          rw [List.take_succ_cons] at hrepeated hdistinct hbefore
          rw [List.nodup_cons] at hdistinct
          rw [List.forall_mem_cons] at hbefore
          rw [List.mem_cons] at hrepeated
          refine ⟨k, by simpa using hk, ?_, hdistinct.2, ?_⟩
          · simp only [List.mem_cons]
            tauto
          · intro x hx
            simp only [List.mem_cons, not_or]
            exact ⟨fun heq => hdistinct.1 (heq ▸ hx), hbefore.2 x hx⟩

end CutTable

/-! ## Requirements -/

namespace CutTableSpec

/-- The variables that the labels name. A label that is not known names none. -/
def columns (spec : CutTableSpec) : List CutVariable :=
  spec.labels.filterMap CutVariable.ofLabel?

/-- What a written table has to meet. -/
inductive Requirement
  | knownLabels
  | twoEdges
  | finiteEdges
  | increasingEdges
  | rowPerBin
  | valuePerLabel
  | finiteValues
  | distinctLabels
  | requiredLabels
  deriving DecidableEq

namespace Requirement

/-- All requirements, in the order in which they are checked. -/
def all : List Requirement :=
  [.knownLabels, .twoEdges, .finiteEdges, .increasingEdges, .rowPerBin, .valuePerLabel,
   .finiteValues, .distinctLabels, .requiredLabels]

/-- The place of a requirement in the order of the checks. -/
def place (r : Requirement) : Nat := all.idxOf r

/-- A written table meets a requirement. -/
def Met (spec : CutTableSpec) (required : List CutVariable) : Requirement → Prop
  | .knownLabels => ∀ label ∈ spec.labels, ∃ v : CutVariable, v.label = label
  | .twoEdges => 2 ≤ spec.ptBins.length
  | .finiteEdges => ∀ x ∈ spec.ptBins, x.isFinite = true
  | .increasingEdges =>
    ∀ (i : Nat) (h : i + 1 < spec.ptBins.length), spec.ptBins[i] < spec.ptBins[i + 1]
  | .rowPerBin => spec.rows.length = spec.ptBins.length - 1
  | .valuePerLabel => ∀ row ∈ spec.rows, row.length = spec.labels.length
  | .finiteValues => ∀ row ∈ spec.rows, ∀ x ∈ row, x.isFinite = true
  | .distinctLabels => spec.labels.Nodup
  | .requiredLabels => ∀ v ∈ required, v.label ∈ spec.labels

/-- An error says how, and at which first place, a requirement is broken. -/
def Reports (spec : CutTableSpec) (required : List CutVariable) (e : CutTableError) :
    Requirement → Prop
  | .knownLabels => ∃ i label,
      FirstAt (fun l => ∀ v : CutVariable, v.label ≠ l) spec.labels i label ∧
        e = .unknownLabel label
  | .twoEdges => spec.ptBins.length < 2 ∧ e = .tooFewEdges spec.ptBins.length
  | .finiteEdges => ∃ i x,
      FirstAt (fun y => y.isFinite = false) spec.ptBins i x ∧ e = .nonFiniteEdge i x
  | .increasingEdges => ∃ i low high,
      FirstAt (fun pair : Float × Float => ¬ pair.1 < pair.2)
        (spec.ptBins.zip spec.ptBins.tail) i (low, high) ∧
        e = .nonIncreasingEdges (i + 1) low high
  | .rowPerBin =>
      spec.rows.length ≠ spec.ptBins.length - 1 ∧
        e = .rowCount (spec.ptBins.length - 1) spec.rows.length
  | .valuePerLabel => ∃ i row,
      FirstAt (fun r => r.length ≠ spec.labels.length) spec.rows i row ∧
        e = .rowLength i row.length spec.labels.length
  | .finiteValues => ∃ i row k x v,
      FirstAt (fun r => ∃ y ∈ r, y.isFinite = false) spec.rows i row ∧
        FirstAt (fun y => y.isFinite = false) row k x ∧
        spec.labels[k]? = some v.label ∧ e = .nonFiniteValue i v
  | .distinctLabels => ∃ k v,
      spec.labels[k]? = some v.label ∧ v.label ∈ spec.labels.take k ∧
        (spec.labels.take k).Nodup ∧ e = .duplicateLabel v
  | .requiredLabels => ∃ k v,
      FirstAt (fun w => w.label ∉ spec.labels) required k v ∧ e = .missingColumn v

/-- The check of a requirement. -/
def defect? (spec : CutTableSpec) (required : List CutVariable) :
    Requirement → Option CutTableError
  | .knownLabels =>
    (spec.labels.find? fun label => (CutVariable.ofLabel? label).isNone).map .unknownLabel
  | .twoEdges => if spec.ptBins.length < 2 then some (.tooFewEdges spec.ptBins.length) else none
  | .finiteEdges => CutTable.nonFiniteEdge? spec.ptBins
  | .increasingEdges => CutTable.nonIncreasingEdge? spec.ptBins
  | .rowPerBin =>
    if spec.rows.length ≠ spec.ptBins.length - 1 then
      some (.rowCount (spec.ptBins.length - 1) spec.rows.length)
    else none
  | .valuePerLabel => CutTable.raggedRow? spec.columns spec.rows
  | .finiteValues => CutTable.nonFiniteValue? spec.columns spec.rows
  | .distinctLabels => (CutTable.firstRepeated? [] spec.columns).map .duplicateLabel
  | .requiredLabels => (required.find? (· ∉ spec.columns)).map .missingColumn

end Requirement

theorem readLabels_eq (labels : List String) :
    CutTable.readLabels labels =
      match labels.find? fun label => (CutVariable.ofLabel? label).isNone with
      | some label => .error (.unknownLabel label)
      | none => .ok (labels.filterMap CutVariable.ofLabel?) := by
  induction labels with
  | nil => rfl
  | cons label rest ih =>
    unfold CutTable.readLabels
    rw [ih]
    cases hlabel : CutVariable.ofLabel? label with
    | none => simp [hlabel]
    | some v =>
      cases hrest : rest.find? fun label => (CutVariable.ofLabel? label).isNone <;>
        simp [hlabel, hrest, Except.map]

theorem findSome?_cons_eq_or {α β : Type} (f : α → Option β) (a : α) (rest : List α) :
    (a :: rest).findSome? f = (f a).or (rest.findSome? f) := by
  rw [List.findSome?_cons]
  cases f a <;> rfl

/-- The labels are read before anything else is checked. -/
theorem findSome?_defect?_all (spec : CutTableSpec) (required : List CutVariable) :
    Requirement.all.findSome? (·.defect? spec required) =
      (Requirement.knownLabels.defect? spec required).or
        (CutTable.defect? spec.ptBins spec.columns spec.rows required) := by
  unfold CutTable.defect?
  simp only [Requirement.all, findSome?_cons_eq_or, List.findSome?_nil, Requirement.defect?]
  by_cases hedges : spec.ptBins.length < 2
  · simp [hedges]
  · simp [hedges]

/-- The checks are run in their order, and the first error is the outcome. -/
theorem ofSpec_eq (spec : CutTableSpec) (required : List CutVariable) :
    CutTable.ofSpec spec required =
      match Requirement.all.findSome? (·.defect? spec required) with
      | some e => .error e
      | none => .ok ⟨spec.ptBins, spec.columns, spec.rows⟩ := by
  unfold CutTable.ofSpec
  rw [readLabels_eq, findSome?_defect?_all]
  unfold Requirement.defect?
  cases spec.labels.find? fun label => (CutVariable.ofLabel? label).isNone with
  | some label => rfl
  | none =>
    show CutTable.make spec.ptBins spec.columns spec.rows required = _
    unfold CutTable.make
    cases CutTable.defect? spec.ptBins spec.columns spec.rows required <;> rfl

/-! ## Columns and their labels -/

section Columns

variable {spec : CutTableSpec}

theorem mem_columns_iff {v : CutVariable} : v ∈ spec.columns ↔ v.label ∈ spec.labels := by
  unfold columns
  simp [List.mem_filterMap, CutVariable.ofLabel?_eq_some_iff]

variable (hknown : ∀ label ∈ spec.labels, ∃ v : CutVariable, v.label = label)
include hknown

/-- Known labels are lost nowhere. -/
theorem map_label_columns : spec.columns.map (·.label) = spec.labels := by
  have hread : ∀ label ∈ spec.labels,
      (CutVariable.ofLabel? label).map (·.label) = some label := by
    intro label hlabel
    obtain ⟨v, rfl⟩ := hknown label hlabel
    rw [CutVariable.ofLabel?_label]
    rfl
  unfold columns
  rw [List.map_filterMap, List.filterMap_congr hread, List.filterMap_some]

theorem length_columns : spec.columns.length = spec.labels.length := by
  conv_rhs => rw [← map_label_columns hknown]
  rw [List.length_map]

theorem getElem?_columns_eq_some_iff {k : Nat} {v : CutVariable} :
    spec.columns[k]? = some v ↔ spec.labels[k]? = some v.label := by
  conv_rhs => rw [← map_label_columns hknown]
  simp [List.getElem?_map, Option.map_eq_some_iff, CutVariable.label_inj]

theorem mem_take_columns_iff {k : Nat} {v : CutVariable} :
    v ∈ spec.columns.take k ↔ v.label ∈ spec.labels.take k := by
  conv_rhs => rw [← map_label_columns hknown]
  rw [← List.map_take, List.mem_map_of_injective fun _ _ => CutVariable.label_inj.mp]

theorem nodup_take_columns_iff {k : Nat} :
    (spec.columns.take k).Nodup ↔ (spec.labels.take k).Nodup := by
  conv_rhs => rw [← map_label_columns hknown]
  rw [← List.map_take, List.nodup_map_iff fun _ _ => CutVariable.label_inj.mp]

theorem nodup_columns_iff : spec.columns.Nodup ↔ spec.labels.Nodup := by
  conv_rhs => rw [← map_label_columns hknown]
  rw [List.nodup_map_iff fun _ _ => CutVariable.label_inj.mp]

end Columns

/-! ## Each check finds what breaks its requirement -/

namespace Requirement

variable {spec : CutTableSpec} {required : List CutVariable} {r : Requirement}

/-- Where all earlier requirements are met, the check of a requirement passes exactly if it
is met as well. -/
theorem defect?_eq_none_iff
    (hearlier : ∀ q : Requirement, q.place < r.place → q.Met spec required) :
    r.defect? spec required = none ↔ r.Met spec required := by
  cases r with
  | knownLabels =>
    simp [defect?, Met, ← CutVariable.ofLabel?_eq_some_iff, ← Option.isSome_iff_exists,
      Option.isSome_iff_ne_none]
  | twoEdges =>
    simp only [defect?, Met, ite_eq_right_iff, reduceCtorEq, imp_false, Nat.not_lt]
  | finiteEdges => exact CutTable.nonFiniteEdge?_eq_none_iff _
  | increasingEdges =>
    exact (CutTable.nonIncreasingEdge?_eq_none_iff _).trans
      (CutTable.increasing_iff (hearlier .finiteEdges (by decide)))
  | rowPerBin => simp [defect?, Met]
  | valuePerLabel =>
    have hlength := length_columns (hearlier .knownLabels (by decide))
    rw [defect?, CutTable.raggedRow?_eq_none_iff, hlength]
    rfl
  | finiteValues =>
    have hlength := length_columns (hearlier .knownLabels (by decide))
    refine CutTable.nonFiniteValue?_eq_none_iff _ _ fun row hrow => ?_
    exact (hearlier .valuePerLabel (by decide) row hrow).trans hlength.symm
  | distinctLabels =>
    rw [defect?, Option.map_eq_none_iff, CutTable.firstRepeated?_eq_none_iff,
      nodup_columns_iff (hearlier .knownLabels (by decide))]
    simp [Met]
  | requiredLabels => simp [defect?, Met, mem_columns_iff]

/-- Where all earlier requirements are met, the check of a requirement reports the first
place that breaks it. -/
theorem defect?_eq_some_iff (hearlier : ∀ q : Requirement, q.place < r.place → q.Met spec required)
    (e : CutTableError) :
    r.defect? spec required = some e ↔ r.Reports spec required e := by
  cases r with
  | knownLabels =>
    refine FirstAt.map_find?_eq_some_iff (fun label => ?_) _ e
    simp [← CutVariable.ofLabel?_eq_some_iff, Option.eq_none_iff_forall_ne_some]
  | twoEdges =>
    rw [defect?, Option.ite_none_right_eq_some, Option.some.injEq, @eq_comm _ _ e]
    rfl
  | finiteEdges => exact CutTable.nonFiniteEdge?_eq_some_iff _ _
  | increasingEdges =>
    have hpairs : ∀ pair ∈ spec.ptBins.zip spec.ptBins.tail,
        pair.2 ≤ pair.1 ↔ ¬ pair.1 < pair.2 := by
      rintro ⟨low, high⟩ hpair
      obtain ⟨hlow, hhigh⟩ := List.of_mem_zip hpair
      have hfinite := hearlier .finiteEdges (by decide)
      constructor
      · exact FloatOrder.not_lt_of_le
      · refine FloatOrder.le_of_not_lt ?_ ?_
        · exact FloatOrder.isNaN_of_isFinite (hfinite high (List.mem_of_mem_tail hhigh))
        · exact FloatOrder.isNaN_of_isFinite (hfinite low hlow)
    rw [defect?, CutTable.nonIncreasingEdge?_eq_some_iff]
    simp only [FirstAt.congr hpairs]
    rfl
  | rowPerBin =>
    rw [defect?, Option.ite_none_right_eq_some, Option.some.injEq, @eq_comm _ _ e]
    rfl
  | valuePerLabel =>
    rw [defect?, CutTable.raggedRow?_eq_some_iff,
      length_columns (hearlier .knownLabels (by decide))]
    rfl
  | finiteValues =>
    have hknown := hearlier .knownLabels (by decide)
    rw [defect?, CutTable.nonFiniteValue?_eq_some_iff]
    · simp only [getElem?_columns_eq_some_iff hknown]
      rfl
    · exact fun row hrow =>
        (hearlier .valuePerLabel (by decide) row hrow).trans (length_columns hknown).symm
  | distinctLabels =>
    have hknown := hearlier .knownLabels (by decide)
    rw [defect?, Option.map_eq_some_iff]
    simp only [CutTable.firstRepeated?_eq_some_iff, getElem?_columns_eq_some_iff hknown,
      mem_take_columns_iff hknown, nodup_take_columns_iff hknown]
    constructor
    · rintro ⟨v, ⟨k, hk, hrepeated, hdistinct, _⟩, rfl⟩
      exact ⟨k, v, hk, by simpa using hrepeated, hdistinct, rfl⟩
    · rintro ⟨k, v, hk, hrepeated, hdistinct, rfl⟩
      exact ⟨v, ⟨k, hk, Or.inr hrepeated, hdistinct, by simp⟩, rfl⟩
  | requiredLabels =>
    refine FirstAt.map_find?_eq_some_iff (fun v => ?_) _ e
    simp [mem_columns_iff]

/-! ## The first requirement that is broken -/

theorem getElem?_all_eq_some_iff {i : Nat} : all[i]? = some r ↔ r.place = i := by
  constructor
  · intro h
    obtain ⟨hi, rfl⟩ := List.getElem?_eq_some_iff.mp h
    have hdistinct : all.Nodup := by decide
    exact hdistinct.idxOf_getElem i hi
  · rintro rfl
    cases r <;> rfl

theorem findSome?_all_eq_some_iff {β : Type} (f : Requirement → Option β) (b : β) :
    all.findSome? f = some b ↔
      ∃ r : Requirement, (∀ q : Requirement, q.place < r.place → f q = none) ∧ f r = some b := by
  rw [FirstAt.findSome?_eq_some_iff (p := fun q => f q ≠ none) fun _ _ => by simp]
  constructor
  · rintro ⟨i, r, ⟨hfound, _, hnone⟩, hr⟩
    refine ⟨r, fun q hq => ?_, hr⟩
    rw [getElem?_all_eq_some_iff.mp hfound] at hq
    exact Classical.not_not.mp (hnone q.place hq q (getElem?_all_eq_some_iff.mpr rfl))
  · rintro ⟨r, hearlier, hr⟩
    refine ⟨r.place, r, ⟨getElem?_all_eq_some_iff.mpr rfl, by simp [hr], ?_⟩, hr⟩
    intro j hj q hq hbroken
    rw [← getElem?_all_eq_some_iff.mp hq] at hj
    exact hbroken (hearlier q hj)

variable (spec required)

-- The induction is on the number of checks. Each one can rely on the requirements whose
-- checks passed before it.
theorem passed_below_iff (n : Nat) :
    (∀ q : Requirement, q.place < n → q.defect? spec required = none) ↔
      ∀ q : Requirement, q.place < n → q.Met spec required := by
  induction n with
  | zero => simp
  | succ n ih =>
    constructor
    · intro hpassed q hq
      have hbelow := ih.mp fun p hp => hpassed p (by omega)
      exact (defect?_eq_none_iff fun p hp => hbelow p (by omega)).mp (hpassed q hq)
    · intro hmet q hq
      exact (defect?_eq_none_iff fun p hp => hmet p (by omega)).mpr (hmet q hq)

theorem findSome?_defect?_eq_none_iff :
    all.findSome? (·.defect? spec required) = none ↔ ∀ r : Requirement, r.Met spec required := by
  have hplace : ∀ q : Requirement, q.place < 9 := fun q => by cases q <;> decide
  have hmem : ∀ q : Requirement, q ∈ all := fun q => by cases q <;> decide
  have hbelow := passed_below_iff spec required 9
  simp only [hplace, true_imp_iff] at hbelow
  rw [List.findSome?_eq_none_iff, ← hbelow]
  exact ⟨fun h q => h q (hmem q), fun h q _ => h q⟩

theorem findSome?_defect?_eq_some_iff (e : CutTableError) :
    all.findSome? (·.defect? spec required) = some e ↔
      ∃ r : Requirement, (∀ q : Requirement, q.place < r.place → q.Met spec required) ∧
        ¬ r.Met spec required ∧ r.Reports spec required e := by
  rw [findSome?_all_eq_some_iff]
  constructor
  · rintro ⟨r, hpassed, hr⟩
    have hearlier := (passed_below_iff spec required r.place).mp hpassed
    refine ⟨r, hearlier, ?_, (defect?_eq_some_iff hearlier e).mp hr⟩
    rw [← defect?_eq_none_iff hearlier, hr]
    simp
  · rintro ⟨r, hearlier, _, hr⟩
    exact ⟨r, (passed_below_iff spec required r.place).mpr hearlier,
      (defect?_eq_some_iff hearlier e).mpr hr⟩

end Requirement

end CutTableSpec

/-- A written table is accepted exactly when it meets all requirements, and it then has a
cell for every bin and label. Otherwise the first requirement that it breaks is reported, at
the first place that breaks it. -/
theorem a_table_is_refused_for_the_first_requirement_it_breaks (spec : CutTableSpec)
    (required : List CutVariable) :
    ((∃ t, CutTable.ofSpec spec required = .ok t) ↔
      ∀ r : CutTableSpec.Requirement, r.Met spec required) ∧
    (∀ e, CutTable.ofSpec spec required = .error e ↔
      ∃ r : CutTableSpec.Requirement,
        (∀ q : CutTableSpec.Requirement, q.place < r.place → q.Met spec required) ∧
        ¬ r.Met spec required ∧ r.Reports spec required e) ∧
    ∀ t, CutTable.ofSpec spec required = .ok t →
      t.edges = spec.ptBins ∧ t.labels.map (·.label) = spec.labels ∧ t.rows = spec.rows ∧
      ∀ (i k : Nat), i < t.bins → k < spec.labels.length →
        ∃ row value, spec.rows[i]? = some row ∧ row[k]? = some value := by
  have hnone := CutTableSpec.Requirement.findSome?_defect?_eq_none_iff spec required
  rw [CutTableSpec.ofSpec_eq]
  simp only [← CutTableSpec.Requirement.findSome?_defect?_eq_some_iff]
  rw [← hnone]
  cases hfirst : CutTableSpec.Requirement.all.findSome? (·.defect? spec required) with
  | some e => simp
  | none =>
    refine ⟨by simp, by simp, ?_⟩
    intro t ht
    cases ht
    have hmet := hnone.mp hfirst
    refine ⟨rfl, CutTableSpec.map_label_columns (hmet .knownLabels), rfl, ?_⟩
    intro i k hi hk
    have hrow : i < spec.rows.length := (hmet .rowPerBin).symm ▸ hi
    have hcell : k < spec.rows[i].length := by
      rw [hmet .valuePerLabel _ (List.getElem_mem hrow)]
      exact hk
    exact ⟨_, _, List.getElem?_eq_getElem hrow, List.getElem?_eq_getElem hcell⟩

/-- Two equal edges, one label twice, one row too short and a column missing. -/
def Sample.brokenTable : CutTableSpec := ⟨[0, 5, 5], ["massMin", "massMin"], [[1], [2, 3]]⟩

theorem a_table_with_many_defects_is_refused_for_its_edges :
    CutTable.ofSpec Sample.brokenTable [.cosPointingAngle] =
      .error (.nonIncreasingEdges 2 5 5) := by
  obtain ⟨_, hrefused, _⟩ :=
    a_table_is_refused_for_the_first_requirement_it_breaks Sample.brokenTable [.cosPointingAngle]
  rw [hrefused]
  refine ⟨.increasingEdges, fun q hearlier => ?_, ?_, ?_⟩
  · cases q with
    | knownLabels =>
      intro label hlabel
      have hname : label = "massMin" := by simpa [Sample.brokenTable] using hlabel
      exact ⟨.massMin, hname.symm⟩
    | twoEdges => exact Nat.le_add_left 2 1
    | finiteEdges =>
      intro x hx
      fin_cases hx <;> decide +kernel
    | _ => exact absurd hearlier (by decide)
  · intro hincreasing
    exact absurd (hincreasing 1 (by decide)) (by decide +kernel)
  · refine ⟨1, 5, 5, ⟨rfl, by decide +kernel, ?_⟩, rfl⟩
    intro j hj pair hpair
    obtain rfl : j = 0 := by omega
    cases hpair
    decide +kernel

end DecaySearch
