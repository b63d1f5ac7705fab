-- The files that the accepted candidates are written to: one for each arity, and
-- one for cascades. A file has a header and then one line for each row.
import DecaySearch.Run

namespace DecaySearch

structure CandidateFiles where
  twoProng : List String
  threeProng : List String
  cascades : List String
  deriving DecidableEq

namespace CandidateFiles

/-! ## Names -/

def twoProngName : String := "candidates_2prong.dat"

def threeProngName : String := "candidates_3prong.dat"

def cascadeName : String := "candidates_cascade.dat"

/-! ## Headers -/

def line (fields : List String) : String := "\t".intercalate fields

/-- The names of the columns. In debug mode each hypothesis has a column for its
cut status. -/
def columns (group : HypothesisGroup) (debug : Bool) : List String :=
  ["# event"] ++ (List.range group.arity.prongs).map (fun prong => s!"track{prong}")
    ++ ["hypotheses"]
    ++ if debug then group.hypotheses.map (·.decay.name) else []

def statusLegend : String :=
  "# cut status bits:" ++ String.join (CutStage.all.map fun stage =>
    s!" {stage.name}={Number.hexByte (UInt8.ofNat stage.bit)}")

def header (group : HypothesisGroup) (debug : Bool) : List String :=
  line (columns group debug) :: if debug then [statusLegend] else []

def cascadeHeader : String := line ["# event", "bachelor", "v0"]

def create (hypotheses : HypothesisSet) (debug : Bool) : CandidateFiles where
  twoProng := header (hypotheses.group .twoProng) debug
  threeProng := header (hypotheses.group .threeProng) debug
  cascades := [cascadeHeader]

/-! ## Rows -/

/-- The line of a row begins with the index of its event. -/
def candidateLine (event : Nat) (row : CandidateRow) : String :=
  line (toString event :: row.fields)

def cascadeLine (event : Nat) (row : Cascade.Row) : String := line [toString event, row.text]

def ofRows (rows : EmittedRows) : CandidateFiles where
  twoProng := rows.twoProng.map fun (event, row) => candidateLine event row
  threeProng := rows.threeProng.map fun (event, row) => candidateLine event row
  cascades := rows.cascades.map fun (event, row) => cascadeLine event row

def append (a b : CandidateFiles) : CandidateFiles :=
  ⟨a.twoProng ++ b.twoProng, a.threeProng ++ b.threeProng, a.cascades ++ b.cascades⟩

def named (files : CandidateFiles) : List (String × List String) :=
  [(twoProngName, files.twoProng), (threeProngName, files.threeProng),
   (cascadeName, files.cascades)]

def write (files : CandidateFiles) (rows : EmittedRows) : CandidateFiles :=
  files.append (ofRows rows)

end CandidateFiles

end DecaySearch
