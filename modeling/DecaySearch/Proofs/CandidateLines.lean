-- The lines of the candidate files. A line is split at its tabs into the fields that it was
-- put together from, and each field is read back as the number that it stands for.
import Mathlib
import DecaySearch.CandidateFiles

namespace DecaySearch

/-! ## Fields -/

/-- The fields of a line, which stand between tabs. -/
def fieldsOf (line : String) : List String := (line.split '\t').toList.map (·.copy)

/-- A text without tabs and line breaks, so that it stays one field of one line. -/
def IsField (text : String) : Prop := '\t' ∉ text.toList ∧ '\n' ∉ text.toList

theorem isField_append {a b : String} (ha : IsField a) (hb : IsField b) : IsField (a ++ b) := by
  unfold IsField at *
  simp only [String.toList_append, List.mem_append, not_or]
  exact ⟨⟨ha.1, hb.1⟩, ha.2, hb.2⟩

theorem isField_nat (n : Nat) : IsField (toString n) := by
  have hdigits : ∀ c ∈ (toString n).toList, c.isDigit = true := by
    intro c hc
    rw [Nat.toString_eq_repr, Nat.toList_repr] at hc
    exact Nat.isDigit_of_mem_toDigits (by decide) (by decide) hc
  constructor
  · intro htab
    exact absurd (hdigits _ htab) (by decide)
  · intro hbreak
    exact absurd (hdigits _ hbreak) (by decide)

theorem fieldsOf_line {fields : List String} (hfields : ∀ field ∈ fields, IsField field)
    (hsome : fields ≠ []) : fieldsOf (CandidateFiles.line fields) = fields := by
  have htab : ("\t" : String) = String.singleton '\t' := by decide
  unfold fieldsOf CandidateFiles.line
  rw [htab, String.toList_split_intercalate fun field hfield => (hfields field hfield).1,
    if_neg hsome]

/-- A line of fields is one line. -/
theorem not_mem_line {fields : List String} (hfields : ∀ field ∈ fields, IsField field) :
    '\n' ∉ (CandidateFiles.line fields).toList := by
  unfold CandidateFiles.line
  rw [String.toList_intercalate]
  induction fields with
  | nil => simp
  | cons field rest ih =>
    have hfirst := (hfields field (by simp)).2
    have hrest := ih fun other hother => hfields other (by simp [hother])
    by_cases hnil : rest = []
    · subst hnil
      simpa using hfirst
    · rw [List.map_cons, List.intercalate_cons_of_ne_nil (by simpa using hnil)]
      simp only [List.mem_append, not_or]
      exact ⟨⟨hfirst, by decide⟩, hrest⟩

/-! ## Bytes -/

/-- The value of a hexadecimal digit. -/
def hexValue? (c : Char) : Option Nat :=
  if c.isDigit then some (c.toNat - '0'.toNat)
  else if 'a' ≤ c ∧ c ≤ 'f' then some (c.toNat - 'a'.toNat + 10)
  else none

/-- Reads `0x` and two hexadecimal digits. -/
def readByte? (text : String) : Option UInt8 :=
  match text.toList with
  | ['0', 'x', high, low] => do
    let high ← hexValue? high
    let low ← hexValue? low
    pure (UInt8.ofNat (16 * high + low))
  | _ => none

theorem hexValue?_digit : ∀ n < 16, hexValue? ((Nat.toDigits 16 n).headD '0') = some n := by
  decide

theorem toList_hexByte (b : UInt8) :
    (Number.hexByte b).toList =
      ['0', 'x', (Nat.toDigits 16 (b.toNat / 16)).headD '0',
        (Nat.toDigits 16 (b.toNat % 16)).headD '0'] := by
  unfold Number.hexByte
  simp only [String.toList_append, String.toList_ofList]
  rfl

theorem readByte?_hexByte (b : UInt8) : readByte? (Number.hexByte b) = some b := by
  have hbyte := b.toNat_lt
  have hhigh := hexValue?_digit (b.toNat / 16) (by omega)
  have hlow := hexValue?_digit (b.toNat % 16) (by omega)
  unfold readByte?
  rw [toList_hexByte]
  simp only [hhigh, hlow, bind, Option.bind, pure, Nat.div_add_mod, UInt8.ofNat_toNat]

theorem isField_hexByte (b : UInt8) : IsField (Number.hexByte b) := by
  have hdigit : ∀ n < 16, (Nat.toDigits 16 n).headD '0' ≠ '\t' ∧
      (Nat.toDigits 16 n).headD '0' ≠ '\n' := by decide
  have hbyte := b.toNat_lt
  obtain ⟨hhigh, hhigh'⟩ := hdigit (b.toNat / 16) (by omega)
  obtain ⟨hlow, hlow'⟩ := hdigit (b.toNat % 16) (by omega)
  unfold IsField
  rw [toList_hexByte]
  simp only [List.mem_cons, List.not_mem_nil, or_false, not_or]
  exact ⟨⟨by decide, by decide, hhigh.symm, hlow.symm⟩,
    ⟨by decide, by decide, hhigh'.symm, hlow'.symm⟩⟩

/-! ## Rows -/

/-- Reads the number of a track. -/
def readTrack? (text : String) : Option TrackId := text.toNat?.map fun n => ⟨UInt64.ofNat n⟩

/-- Reads a line of a candidate file: the index of the event, the tracks, the mask, and in
debug mode the status bytes. -/
def readCandidate? (prongs : Nat) (debug : Bool) (line : String) : Option (Nat × CandidateRow) :=
  match fieldsOf line with
  | [] => none
  | event :: fields => do
    let event ← event.toNat?
    let tracks ← (fields.take prongs).mapM readTrack?
    match fields.drop prongs with
    | [] => none
    | mask :: status => do
      let mask ← mask.toNat?
      let status ← status.mapM readByte?
      pure (event, ⟨tracks, ⟨BitVec.ofNat 8 mask⟩, if debug then some status else none⟩)

/-- Reads a line of the cascade file: the index of the event, the bachelor and the V0. -/
def readCascade? (line : String) : Option (Nat × Cascade.Row) :=
  match fieldsOf line with
  | [event, bachelor, v0] => do
    let event ← event.toNat?
    let bachelor ← readTrack? bachelor
    let v0 ← v0.toNat?
    pure (event, ⟨bachelor, ⟨UInt64.ofNat v0⟩⟩)
  | _ => none

theorem mapM_map_eq_some {α β : Type} {f : α → β} {g : β → Option α}
    (hread : ∀ a, g (f a) = some a) (xs : List α) : (xs.map f).mapM g = some xs := by
  induction xs with
  | nil => rfl
  | cons x rest ih =>
    rw [List.map_cons, List.mapM_cons, hread, ih]
    rfl

theorem toNat?_toString (n : Nat) : (toString n).toNat? = some n := by
  rw [Nat.toString_eq_repr]
  exact Nat.toNat?_repr n

theorem readTrack?_toString (id : TrackId) : readTrack? (toString id.value) = some id := by
  have hnumber : (toString id.value).toNat? = some id.value.toNat :=
    toNat?_toString id.value.toNat
  unfold readTrack?
  rw [hnumber, Option.map_some, UInt64.ofNat_toNat]

namespace CandidateFiles

theorem isField_of_mem_candidate (event : Nat) (row : CandidateRow) :
    ∀ field ∈ toString event :: row.fields, IsField field := by
  intro field hfield
  unfold CandidateRow.fields at hfield
  simp only [List.mem_cons, List.mem_append, List.mem_map, List.not_mem_nil, or_false] at hfield
  rcases hfield with rfl | (⟨id, _, rfl⟩ | rfl) | ⟨byte, _, rfl⟩
  · exact isField_nat event
  · exact isField_nat id.value.toNat
  · exact isField_nat row.hypotheses.bits.toNat
  · exact isField_hexByte byte

/-- The fields of a line are those of its row, behind the index of the event. -/
theorem fieldsOf_candidateLine (event : Nat) (row : CandidateRow) :
    fieldsOf (candidateLine event row) = toString event :: row.fields :=
  fieldsOf_line (isField_of_mem_candidate event row) (List.cons_ne_nil _ _)

/-- What is written about a row is read back, if the row has as many tracks and the status
bytes of its mode. -/
theorem readCandidate?_candidateLine {prongs : Nat} {debug : Bool} (event : Nat)
    {row : CandidateRow} (htracks : row.tracks.length = prongs)
    (hstatus : row.cutStatus.isSome = debug) :
    readCandidate? prongs debug (candidateLine event row) = some (event, row) := by
  rcases row with ⟨tracks, mask, status⟩
  have hnumbers : (tracks.map fun id => toString id.value).length = prongs := by
    rw [List.length_map]
    exact htracks
  unfold readCandidate?
  rw [fieldsOf_candidateLine]
  unfold CandidateRow.fields
  simp only [List.append_assoc, List.take_left' hnumbers, List.drop_left' hnumbers,
    toNat?_toString, mapM_map_eq_some readTrack?_toString]
  have hmask : mask.text.toNat? = some mask.bits.toNat := toNat?_toString mask.bits.toNat
  simp only [List.singleton_append, hmask, mapM_map_eq_some readByte?_hexByte, bind, Option.bind,
    pure, BitVec.ofNat_toNat, BitVec.setWidth_eq]
  cases status with
  | none => rw [← hstatus]; rfl
  | some bytes => rw [← hstatus]; rfl

/-- The text of a cascade holds two fields. -/
theorem cascadeLine_eq (event : Nat) (row : Cascade.Row) :
    cascadeLine event row =
      line [toString event, toString row.bachelor.value, toString row.v0.value] := by
  unfold cascadeLine line Cascade.Row.text
  rw [← String.toList_inj, String.toList_intercalate, String.toList_intercalate]
  simp [List.intercalate]
  rfl

theorem isField_of_mem_cascade (event : Nat) (row : Cascade.Row) :
    ∀ field ∈ [toString event, toString row.bachelor.value, toString row.v0.value],
      IsField field := by
  intro field hfield
  simp only [List.mem_cons, List.not_mem_nil, or_false] at hfield
  rcases hfield with rfl | rfl | rfl
  · exact isField_nat event
  · exact isField_nat row.bachelor.value.toNat
  · exact isField_nat row.v0.value.toNat

theorem fieldsOf_cascadeLine (event : Nat) (row : Cascade.Row) :
    fieldsOf (cascadeLine event row) =
      [toString event, toString row.bachelor.value, toString row.v0.value] := by
  rw [cascadeLine_eq]
  exact fieldsOf_line (isField_of_mem_cascade event row) (List.cons_ne_nil _ _)

theorem readCascade?_cascadeLine (event : Nat) (row : Cascade.Row) :
    readCascade? (cascadeLine event row) = some (event, row) := by
  have hv0 : (toString row.v0.value).toNat? = some row.v0.value.toNat :=
    toNat?_toString row.v0.value.toNat
  unfold readCascade?
  rw [fieldsOf_cascadeLine]
  simp only [toNat?_toString, readTrack?_toString, hv0, bind, Option.bind, pure,
    UInt64.ofNat_toNat]

/-! ## Headers -/

theorem isField_of_mem_columns (group : HypothesisGroup) (debug : Bool) :
    ∀ field ∈ columns group debug, IsField field := by
  have hnames : ∀ decay : Decay, IsField decay.name := by
    intro decay
    cases decay <;> exact ⟨by decide, by decide⟩
  intro field hfield
  unfold columns at hfield
  simp only [List.mem_append, List.mem_map, List.mem_singleton] at hfield
  rcases hfield with ((rfl | ⟨prong, _, rfl⟩) | rfl) | hname
  · exact ⟨by decide, by decide⟩
  · exact isField_append (a := "track") ⟨by decide, by decide⟩ (isField_nat prong)
  · exact ⟨by decide, by decide⟩
  · cases debug with
    | false => cases hname
    | true =>
      obtain ⟨h, _, rfl⟩ := List.mem_map.mp hname
      exact hnames h.decay

theorem length_columns (group : HypothesisGroup) (debug : Bool) :
    (columns group debug).length =
      1 + group.arity.prongs + 1 + if debug then group.size else 0 := by
  unfold columns HypothesisGroup.size
  cases debug <;> simp <;> omega

end CandidateFiles

end DecaySearch
