-- The candidate files of a run. However the rows are split into writes, each file holds its
-- header and then one line for each row, with as many fields as the header has columns, and
-- every row can be read back from its line.
import DecaySearch.Proofs.CandidateLines
import DecaySearch.Proofs.Counters
import DecaySearch.Proofs.StatusBytes

namespace DecaySearch

/-! ## Writes -/

/-- The rows of an arity with the indices of their events. -/
def EmittedRows.numbered (r : EmittedRows) : Arity → List (Nat × CandidateRow)
  | .twoProng => r.twoProng
  | .threeProng => r.threeProng

theorem EmittedRows.numbered_append (a b : EmittedRows) (arity : Arity) :
    (a.append b).numbered arity = a.numbered arity ++ b.numbered arity := by
  cases arity <;> rfl

theorem EmittedRows.mem_numbered_concat {parts : List EmittedRows} {arity : Arity}
    {x : Nat × CandidateRow} (h : x ∈ (concat parts).numbered arity) :
    ∃ part ∈ parts, x ∈ part.numbered arity := by
  induction parts with
  | nil => cases arity <;> cases h
  | cons part rest ih =>
    have hconcat : concat (part :: rest) = part.append (concat rest) := rfl
    rw [hconcat, numbered_append, List.mem_append] at h
    rcases h with hfirst | hrest
    · exact ⟨part, List.mem_cons_self, hfirst⟩
    · obtain ⟨other, hother, hx⟩ := ih hrest
      exact ⟨other, List.mem_cons_of_mem _ hother, hx⟩

namespace CandidateFiles

/-- The lines of the candidate file of an arity. -/
def candidates (files : CandidateFiles) : Arity → List String
  | .twoProng => files.twoProng
  | .threeProng => files.threeProng

theorem ofRows_append (a b : EmittedRows) :
    ofRows (a.append b) = (ofRows a).append (ofRows b) := by
  unfold ofRows EmittedRows.append append
  simp only [List.map_append]

/-- Only the rows matter, not how they are split into writes. -/
theorem foldl_write (calls : List EmittedRows) (files : CandidateFiles) :
    calls.foldl write files = files.append (ofRows (.concat calls)) := by
  induction calls generalizing files with
  | nil =>
    unfold append ofRows EmittedRows.concat EmittedRows.empty
    simp
  | cons rows rest ih =>
    have hconcat : EmittedRows.concat (rows :: rest) = rows.append (.concat rest) := rfl
    rw [List.foldl_cons, ih, hconcat, ofRows_append]
    unfold write append
    simp only [List.append_assoc]

end CandidateFiles

/-! ## The rows of a run -/

/-- A row has the tracks of its arity and, in debug mode only, a byte for each hypothesis. -/
structure CandidateRow.Fits (row : CandidateRow) (arity : Arity) (debug : Bool) (size : Nat) :
    Prop where
  tracks : row.tracks.length = arity.prongs
  status : row.cutStatus.isSome = debug
  bytes : (row.cutStatus.getD []).length = if debug then size else 0

namespace Search

/-- A row comes out of the search of an event. -/
def Emits (s : Search) (arity : Arity) (row : CandidateRow) : Prop :=
  ∃ event report, s.process event = .ok report ∧ row ∈ report.output.rows arity

variable {s : Search}

theorem emits_of_mem_integrate {source : EventSource} {before after : RunAccumulator} {i : Nat}
    (hstep : s.integrate source before i = .ok after) {arity : Arity}
    (hbefore : ∀ x ∈ before.rows.numbered arity, s.Emits arity x.2) :
    ∀ x ∈ after.rows.numbered arity, s.Emits arity x.2 := by
  obtain ⟨event, _, hstep⟩ := steps_of_bind_eq_ok hstep
  obtain ⟨report, hprocess, hstep⟩ := steps_of_bind_eq_ok hstep
  have hafter : after = before.append (.ofEvent i report.output) := by
    unfold RunAccumulator.integrate RunAccumulator.merge RunAccumulator.checked at hstep
    split at hstep
    · cases hstep
      rfl
    · cases hstep
  intro x hx
  rw [hafter] at hx
  change x ∈ (before.rows.append _).numbered arity at hx
  rw [EmittedRows.numbered_append, List.mem_append] at hx
  rcases hx with hold | hnew
  · exact hbefore x hold
  · refine ⟨event, report, hprocess, ?_⟩
    unfold RunAccumulator.ofEvent at hnew
    by_cases haccepted : report.output.accepted = true
    · rw [if_pos haccepted] at hnew
      cases arity
      · obtain ⟨row, hrow, rfl⟩ := List.mem_map.mp hnew
        exact hrow
      · obtain ⟨row, hrow, rfl⟩ := List.mem_map.mp hnew
        exact hrow
    · rw [if_neg haccepted] at hnew
      cases arity <;> cases hnew

theorem emits_of_mem_foldlM {source : EventSource} {arity : Arity} (indices : List Nat)
    {before after : RunAccumulator}
    (hbefore : ∀ x ∈ before.rows.numbered arity, s.Emits arity x.2)
    (hsteps : indices.foldlM (s.integrate source) before = .ok after) :
    ∀ x ∈ after.rows.numbered arity, s.Emits arity x.2 := by
  induction indices generalizing before with
  | nil =>
    cases hsteps
    exact hbefore
  | cons i rest ih =>
    rw [List.foldlM_cons] at hsteps
    obtain ⟨next, hstep, hrest⟩ := steps_of_bind_eq_ok hsteps
    exact ih (emits_of_mem_integrate hstep hbefore) hrest

/-- All rows of a batch come out of the search of an event. -/
theorem emits_of_mem_processRange {source : EventSource} {range : EventRange}
    {total : RunAccumulator} (hrun : s.processRange source range = .ok total) (arity : Arity) :
    ∀ x ∈ total.rows.numbered arity, s.Emits arity x.2 := by
  apply emits_of_mem_foldlM range.indices _ hrun
  intro x hx
  cases arity <;> cases hx

variable (hs : s.WellFormed)
include hs

theorem fits_of_emits {arity : Arity} {row : CandidateRow} (hemits : s.Emits arity row) :
    row.Fits arity s.mode.isDebug (s.hypotheses.group arity).size := by
  obtain ⟨event, report, hprocess, hrow⟩ := hemits
  by_cases haccepted : event.accepted = true
  · rw [process_eq hs haccepted] at hprocess
    cases hprocess
    obtain ⟨prongs, hprongs, has, rfl⟩ := (mem_rows_report_iff s event arity row).mp hrow
    have harity : Combination.arityOf prongs = arity := by
      unfold Evaluation.acceptedAs at has
      rw [Bool.and_eq_true, decide_eq_true_iff, arity_outcome, hs.hypotheses.arities] at has
      exact has.2
    have hlength := Arity.length_of_follows (follows_of_mem_formed hprongs)
    have hbytes := length_statusBytes_outcome hs arity event.primaryVertex prongs
    rw [harity] at hlength ⊢
    unfold Candidate.toRow
    constructor
    · rw [prongs_outcome, List.length_map, hlength]
    · cases s.mode <;> rfl
    · unfold Candidate.statusBytes at hbytes
      cases s.mode with
      | production => rfl
      | debug => exact hbytes
  · rw [Bool.not_eq_true] at haccepted
    rw [process_of_rejected s haccepted] at hprocess
    cases hprocess
    cases arity <;> cases hrow

end Search

/-! ## What a file holds -/

/-- A file holds a header and then a line for each row. All lines of rows have as many fields
as the first line of the header, and every row is read back from its line. -/
structure Holds {Row : Type} (file header : List String) (columns : Nat) (lineOf : Row → String)
    (read? : String → Option Row) (rows : List Row) : Prop where
  lines : file = header ++ rows.map lineOf
  header_columns : ∃ first rest, header = first :: rest ∧ (fieldsOf first).length = columns
  row_columns : ∀ row ∈ rows, (fieldsOf (lineOf row)).length = columns
  recovered : ∀ row ∈ rows, read? (lineOf row) = some row
  distinct : ∀ row ∈ rows, ∀ other ∈ rows, lineOf row = lineOf other → row = other
  unbroken : ∀ line ∈ file, '\n' ∉ line.toList

/-- Rows that are read back from their lines have different lines. -/
theorem eq_of_recovered {Row : Type} {lineOf : Row → String} {read? : String → Option Row}
    {rows : List Row} (hread : ∀ row ∈ rows, read? (lineOf row) = some row) :
    ∀ row ∈ rows, ∀ other ∈ rows, lineOf row = lineOf other → row = other := by
  intro row hrow other hother hline
  have hsame := hread other hother
  rw [← hline, hread row hrow] at hsame
  exact Option.some.inj hsame

namespace CandidateFiles

theorem not_mem_header (group : HypothesisGroup) (debug : Bool) :
    ∀ first ∈ header group debug, '\n' ∉ first.toList := by
  intro first hfirst
  unfold header at hfirst
  rw [List.mem_cons] at hfirst
  rcases hfirst with rfl | hlegend
  · exact not_mem_line (isField_of_mem_columns group debug)
  · cases debug with
    | false => cases hlegend
    | true =>
      rw [List.mem_singleton.mp hlegend]
      decide +kernel

/-- A candidate file, if its rows have the form that the header announces. -/
theorem holds_candidates {group : HypothesisGroup} {debug : Bool}
    {rows : List (Nat × CandidateRow)}
    (hrows : ∀ x ∈ rows, x.2.Fits group.arity debug group.size) :
    Holds (header group debug ++ rows.map fun x => candidateLine x.1 x.2) (header group debug)
      (1 + group.arity.prongs + 1 + if debug then group.size else 0)
      (fun x => candidateLine x.1 x.2) (readCandidate? group.arity.prongs debug) rows := by
  have hread : ∀ x ∈ rows,
      readCandidate? group.arity.prongs debug (candidateLine x.1 x.2) = some x :=
    fun x hx => readCandidate?_candidateLine x.1 (hrows x hx).tracks (hrows x hx).status
  refine ⟨rfl, ?_, ?_, hread, eq_of_recovered hread, ?_⟩
  · refine ⟨_, _, rfl, ?_⟩
    rw [fieldsOf_line (isField_of_mem_columns group debug) (by simp [columns]), length_columns]
  · intro x hx
    obtain ⟨htracks, _, hbytes⟩ := hrows x hx
    rw [fieldsOf_candidateLine]
    unfold CandidateRow.fields
    simp only [List.length_cons, List.length_append, List.length_map, List.length_nil, htracks,
      hbytes]
    omega
  · intro text htext
    rw [List.mem_append, List.mem_map] at htext
    rcases htext with hheader | ⟨x, _, rfl⟩
    · exact not_mem_header group debug text hheader
    · exact not_mem_line (isField_of_mem_candidate x.1 x.2)

/-- The cascade file, whatever its rows are. -/
theorem holds_cascades (rows : List (Nat × Cascade.Row)) :
    Holds (cascadeHeader :: rows.map fun x => cascadeLine x.1 x.2) [cascadeHeader] 3
      (fun x => cascadeLine x.1 x.2) readCascade? rows := by
  have hheader : ∀ field ∈ ["# event", "bachelor", "v0"], IsField field := by
    intro field hfield
    simp only [List.mem_cons, List.not_mem_nil, or_false] at hfield
    rcases hfield with rfl | rfl | rfl <;> exact ⟨by decide, by decide⟩
  have hread : ∀ x ∈ rows, readCascade? (cascadeLine x.1 x.2) = some x :=
    fun x _ => readCascade?_cascadeLine x.1 x.2
  refine ⟨rfl, ?_, ?_, hread, eq_of_recovered hread, ?_⟩
  · refine ⟨_, _, rfl, ?_⟩
    unfold cascadeHeader
    rw [fieldsOf_line hheader (List.cons_ne_nil _ _)]
    rfl
  · intro x _
    rw [fieldsOf_cascadeLine]
    rfl
  · intro text htext
    rw [List.mem_cons, List.mem_map] at htext
    rcases htext with rfl | ⟨x, _, rfl⟩
    · exact not_mem_line hheader
    · rw [cascadeLine_eq]
      exact not_mem_line (isField_of_mem_cascade x.1 x.2)

end CandidateFiles

/-! ## The files of a run -/

/-- The candidate files of a run are well-formed and lossless. The rows of the batches may be
split into writes at will: each file holds its header and then the rows in the order of their
emission, one line for each. A line has a field for each column of the header, and the index
of the event, the tracks, the mask and the status bytes are read back from it. -/
theorem candidate_files_are_well_formed_and_lossless {s : Search} (hs : s.WellFormed)
    {debug : Bool} (hmode : s.mode = .ofDebug debug) {source : EventSource}
    {batches : List RunAccumulator}
    (hrun : ∀ batch ∈ batches, ∃ range, s.processRange source range = .ok batch)
    {rows : EmittedRows} (hrows : rows = .concat (batches.map (·.rows)))
    {calls : List EmittedRows} (hcalls : .concat calls = rows)
    {files : CandidateFiles}
    (hfiles : files = calls.foldl CandidateFiles.write (.create s.hypotheses debug)) :
    (∀ arity, Holds (files.candidates arity)
      (CandidateFiles.header (s.hypotheses.group arity) debug)
      (1 + arity.prongs + 1 + if debug then (s.hypotheses.group arity).size else 0)
      (fun x => CandidateFiles.candidateLine x.1 x.2) (readCandidate? arity.prongs debug)
      (rows.numbered arity)) ∧
    Holds files.cascades [CandidateFiles.cascadeHeader] 3
      (fun x => CandidateFiles.cascadeLine x.1 x.2) readCascade? rows.cascades := by
  have hdebug : s.mode.isDebug = debug := by
    rw [hmode]
    cases debug <;> rfl
  rw [CandidateFiles.foldl_write, hcalls] at hfiles
  constructor
  · intro arity
    have hfits : ∀ x ∈ rows.numbered arity,
        x.2.Fits (s.hypotheses.group arity).arity debug (s.hypotheses.group arity).size := by
      intro x hx
      rw [hrows] at hx
      obtain ⟨part, hpart, hx⟩ := EmittedRows.mem_numbered_concat hx
      obtain ⟨batch, hbatch, rfl⟩ := List.mem_map.mp hpart
      obtain ⟨range, hrange⟩ := hrun batch hbatch
      rw [hs.hypotheses.arities, ← hdebug]
      exact Search.fits_of_emits hs (Search.emits_of_mem_processRange hrange arity x hx)
    have hholds := CandidateFiles.holds_candidates hfits
    rw [hs.hypotheses.arities] at hholds
    have hfile : files.candidates arity =
        CandidateFiles.header (s.hypotheses.group arity) debug ++
          (rows.numbered arity).map fun x => CandidateFiles.candidateLine x.1 x.2 := by
      rw [hfiles]
      cases arity <;> rfl
    rwa [hfile]
  · rw [hfiles]
    exact CandidateFiles.holds_cascades rows.cascades

namespace Sample

/-- A search of the pair gives one row. -/
theorem exists_batch_of_pair :
    ∃ batch, (search true true).processRange (.recorded #[event]) ⟨0, 1⟩ = .ok batch ∧
      batch.rows.twoProng.length = 1 := by
  have hs := search_wellFormed true true
  have hfits : (gathered ((search true true).outputAt [event]) [0]).totals.counts.fits = true := by
    have htagged := Search.taggedTracks_report_le (search true true) event
    rw [Search.counts_of_one_event _ rfl]
    unfold EventCounts.fits EventCounts.toList
    simp only [List.all_cons, List.all_nil, Bool.and_true, Bool.and_eq_true, decide_eq_true_eq]
    refine ⟨Nat.lt_of_le_of_lt htagged (by decide), ?_⟩
    decide +kernel
  refine ⟨gathered ((search true true).outputAt [event]) [0], ?_, by decide +kernel⟩
  rw [Search.processRange_recorded hs [event] (by decide : (1 : Nat) ≤ 1), integrateRange_eq]
  exact if_pos hfits

end Sample

open Sample in
/-- The row of a pair is written in debug mode, with one status byte. -/
theorem the_row_of_a_pair_is_read_back :
    (search true true).WellFormed ∧ (search true true).mode = .ofDebug true ∧
    ∃ batch x, (search true true).processRange (.recorded #[event]) ⟨0, 1⟩ = .ok batch ∧
      batch.rows.twoProng = [x] ∧
      ([batch.rows].foldl CandidateFiles.write (.create hypotheses true)).twoProng =
        CandidateFiles.header hypotheses.twoProng true ++ [CandidateFiles.candidateLine x.1 x.2] ∧
      (fieldsOf (CandidateFiles.candidateLine x.1 x.2)).length = 5 ∧
      readCandidate? 2 true (CandidateFiles.candidateLine x.1 x.2) = some x := by
  have hs := search_wellFormed true true
  obtain ⟨batch, hbatch, hone⟩ := exists_batch_of_pair
  obtain ⟨x, hx⟩ := List.length_eq_one_iff.mp hone
  have hbatches : ∀ b ∈ [batch], ∃ range,
      (search true true).processRange (.recorded #[event]) range = .ok b := by
    intro b hb
    rw [List.mem_singleton.mp hb]
    exact ⟨_, hbatch⟩
  have hcalls : EmittedRows.concat [batch.rows] = .concat ([batch].map (·.rows)) := rfl
  have hmode : (search true true).mode = .ofDebug true := rfl
  obtain ⟨hfiles, _⟩ :=
    candidate_files_are_well_formed_and_lossless hs hmode hbatches rfl hcalls rfl
  have hfile := hfiles .twoProng
  have hrows : (EmittedRows.concat ([batch].map (·.rows))).numbered .twoProng = [x] := by
    change batch.rows.twoProng ++ [] = [x]
    rw [hx, List.append_nil]
  rw [hrows] at hfile
  refine ⟨hs, hmode, batch, x, hbatch, hx, hfile.lines, ?_, ?_⟩
  · exact hfile.row_columns x List.mem_cons_self
  · exact hfile.recovered x List.mem_cons_self

end DecaySearch
