-- Tables of selection thresholds, binned in transverse momentum. A table is
-- checked once, when it is built, and only read afterwards.
import DecaySearch.Fault
import DecaySearch.Number.Notation

namespace DecaySearch

/-! ## Defects -/

inductive CutTableError
  /-- One bin needs two edges. -/
  | tooFewEdges (count : Nat)
  | nonFiniteEdge (index : Nat) (value : Float)
  /-- An edge does not exceed the one before it. -/
  | nonIncreasingEdges (index : Nat) (previous value : Float)
  /-- Each bin has one row. -/
  | rowCount (bins rows : Nat)
  /-- Each row has one value per label. -/
  | rowLength (row values labels : Nat)
  | nonFiniteValue (row : Nat) (label : CutVariable)
  | duplicateLabel (label : CutVariable)
  | unknownLabel (label : String)
  /-- A selection needs a column that the table does not have. -/
  | missingColumn (label : CutVariable)
  deriving DecidableEq

namespace CutTableError

def message : CutTableError → String
  | .tooFewEdges count => s!"at least 2 pT bin edges are needed, got {count}"
  | .nonFiniteEdge index value =>
    s!"pT bin edge #{index} is not a finite number ({Number.positional value})"
  | .nonIncreasingEdges index previous value =>
    s!"pT bin edges must be strictly increasing, but edge #{index} " ++
      s!"({Number.positional value}) does not exceed its predecessor " ++
      s!"({Number.positional previous})"
  | .rowCount bins rows => s!"expected one row of cuts per pT bin ({bins}), got {rows}"
  | .rowLength row values labels =>
    s!"row #{row} has {values} values, but {labels} labels were declared"
  | .nonFiniteValue row label => s!"the {label.label} cut of row #{row} is not a finite number"
  | .duplicateLabel label => s!"cut variable {label.label} is declared twice"
  | .unknownLabel label => s!"unknown cut variable label \"{label}\""
  | .missingColumn label => s!"required cut variable {label.label} is missing"

end CutTableError

/-! ## Tables -/

/-- A table as it is written in a configuration. -/
structure CutTableSpec where
  ptBins : List Float
  labels : List String
  rows : List (List Float)

/-- The position of a bin. Bins are only found by looking up a value. -/
structure PtBin where
  index : Nat
  deriving DecidableEq

/-- A table that has passed all checks. Row `i` holds the thresholds for values
from edge `i` up to edge `i + 1`, one per label. -/
structure CutTable where
  edges : List Float
  labels : List CutVariable
  rows : List (List Float)
  deriving DecidableEq

namespace CutTable

/-! ### Construction -/

/-- The first edge that is not finite. -/
def nonFiniteEdge? (edges : List Float) : Option CutTableError :=
  (edges.zipIdx.find? fun (value, _) => !value.isFinite).map fun (value, index) =>
    .nonFiniteEdge index value

/-- The first edge that does not exceed its predecessor. -/
def nonIncreasingEdge? (edges : List Float) : Option CutTableError :=
  ((edges.zip edges.tail).zipIdx.find? fun ((previous, value), _) => value ≤ previous).map
    fun ((previous, value), index) => .nonIncreasingEdges (index + 1) previous value

/-- The first row that does not have one value per label. -/
def raggedRow? (labels : List CutVariable) (rows : List (List Float)) : Option CutTableError :=
  (rows.zipIdx.find? fun (row, _) => row.length ≠ labels.length).map fun (row, index) =>
    .rowLength index row.length labels.length

/-- The first value, row by row, that is not finite. -/
def nonFiniteValue? (labels : List CutVariable) (rows : List (List Float)) :
    Option CutTableError :=
  rows.zipIdx.findSome? fun (row, index) =>
    ((row.zip labels).find? fun (value, _) => !value.isFinite).map fun (_, label) =>
      .nonFiniteValue index label

/-- The first element that stands earlier in the list already. -/
def firstRepeated? {α : Type} [DecidableEq α] (seen : List α) : List α → Option α
  | [] => none
  | a :: rest => if a ∈ seen then some a else firstRepeated? (a :: seen) rest

/-- The first defect of a table. The checks run in a fixed order, and the
later ones rely on what the earlier ones found in order. -/
def defect? (edges : List Float) (labels : List CutVariable) (rows : List (List Float))
    (required : List CutVariable) : Option CutTableError :=
  if edges.length < 2 then some (.tooFewEdges edges.length)
  else nonFiniteEdge? edges
    <|> nonIncreasingEdge? edges
    <|> (if rows.length ≠ edges.length - 1 then some (.rowCount (edges.length - 1) rows.length)
         else none)
    <|> raggedRow? labels rows
    <|> nonFiniteValue? labels rows
    <|> (firstRepeated? [] labels).map .duplicateLabel
    <|> (required.find? (· ∉ labels)).map .missingColumn

/-- Builds a table, if it has no defect. -/
def make (edges : List Float) (labels : List CutVariable) (rows : List (List Float))
    (required : List CutVariable) : Except CutTableError CutTable :=
  match defect? edges labels rows required with
  | some e => .error e
  | none => .ok ⟨edges, labels, rows⟩

/-- Reads labels. The first unknown one is reported. -/
def readLabels : List String → Except CutTableError (List CutVariable)
  | [] => .ok []
  | label :: rest =>
    match CutVariable.ofLabel? label with
    | none => .error (.unknownLabel label)
    | some v => (readLabels rest).map (v :: ·)

/-- Builds a table from its written form. Unknown labels are reported before
any other defect. -/
def ofSpec (spec : CutTableSpec) (required : List CutVariable) : Except CutTableError CutTable :=
  match readLabels spec.labels with
  | .error e => .error e
  | .ok labels => make spec.ptBins labels spec.rows required

/-! ### Look-up -/

def bins (t : CutTable) : Nat := t.edges.length - 1

/-- Truth that a value lies between the first and the last edge. Bins are
closed on the left and open on the right, and NaN lies nowhere. -/
def covers (t : CutTable) (pt : Float) : Bool :=
  match t.edges.head?, t.edges.getLast? with
  | some first, some last => first ≤ pt && pt < last
  | _, _ => false

/-- The bin that a value falls into: the last one whose lower edge does not
exceed it. -/
def findBin (t : CutTable) (pt : Float) : Option PtBin :=
  if t.covers pt then some ⟨(t.edges.takeWhile (· ≤ pt)).length - 1⟩ else none

def has (t : CutTable) (v : CutVariable) : Bool := v ∈ t.labels

def column? (t : CutTable) (v : CutVariable) : Option Nat := t.labels.idxOf? v

/-- The threshold of a bin. Selections only read columns that were required
when the table was built. -/
def get (t : CutTable) (bin : PtBin) (v : CutVariable) : Except Fault Float :=
  match t.column? v with
  | none => .error (.missingColumn v)
  | some column =>
    match t.rows[bin.index]? with
    | none => .error .missingBin
    | some row =>
      match row[column]? with
      | none => .error .missingBin
      | some value => .ok value

end CutTable

end DecaySearch
