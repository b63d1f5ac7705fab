-- Event files are read as a whole or refused for their first defect. The daughters of a V0 are
-- looked up among the tracks as the search looks them up later, so whatever a file that was
-- read says about its V0s holds in the search as well.
import DecaySearch.EventFile
import DecaySearch.Proofs.FirstPlaces
import DecaySearch.Proofs.WellFormed

namespace DecaySearch

/-! ## Records without defects -/

/-- The charge of a record has a sign. -/
def TrackRecord.HasSign (r : TrackRecord) : Sign → Prop
  | .positive => 0 < r.charge
  | .negative => r.charge < 0
  | .neutral => r.charge = 0

theorem TrackRecord.hasSign_unique {r : TrackRecord} {a b : Sign} (ha : r.HasSign a)
    (hb : r.HasSign b) : a = b := by
  cases a <;> cases b <;> simp only [HasSign] at ha hb <;> first | rfl | omega

/-- The first of some tracks with an identity has a sign. -/
def TrackRecord.FirstHasSign (tracks : List TrackRecord) (id : UInt64) (sign : Sign) : Prop :=
  ∃ i t, FirstAt (fun r => r.id = id) tracks i t ∧ t.HasSign sign

/-- A V0 whose daughters are a positive and a negative track. -/
structure V0Record.Sound (r : V0Record) (tracks : List TrackRecord) : Prop where
  positive : TrackRecord.FirstHasSign tracks r.positive .positive
  negative : TrackRecord.FirstHasSign tracks r.negative .negative

/-- An event with charged tracks only, some of which are the daughters of its V0s. -/
structure EventRecord.Sound (r : EventRecord) : Prop where
  tracks : ∀ t ∈ r.tracks, t.charge ≠ 0
  v0s : ∀ v ∈ r.v0s, v.Sound r.tracks

/-! ## Defects -/

/-- What is wrong with a daughter of a V0: there is no such track, or it has the wrong sign. -/
inductive DaughterDefect (v0 : UInt64) (tracks : List TrackRecord) (id : UInt64)
    (expected : Sign) : V0Error → Prop
  | unknown (h : ∀ t ∈ tracks, t.id ≠ id) :
    DaughterDefect v0 tracks id expected (.unknownTrack ⟨v0⟩ ⟨id⟩)
  | wrongSign {i : Nat} {t : TrackRecord} {found : Sign}
      (hfirst : FirstAt (fun r => r.id = id) tracks i t) (hfound : t.HasSign found)
      (hwrong : found ≠ expected) :
    DaughterDefect v0 tracks id expected (.wrongSign ⟨v0⟩ ⟨id⟩ expected found)

/-- The first defect of a V0. The positive daughter comes before the negative one. -/
inductive V0Record.Defect (r : V0Record) (tracks : List TrackRecord) : V0Error → Prop
  | positive {defect : V0Error}
      (h : DaughterDefect r.id tracks r.positive .positive defect) : Defect r tracks defect
  | negative {defect : V0Error}
      (hpositive : TrackRecord.FirstHasSign tracks r.positive .positive)
      (h : DaughterDefect r.id tracks r.negative .negative defect) : Defect r tracks defect

/-- The first defect of an event. The tracks come before the V0s. -/
inductive EventRecord.Defect (r : EventRecord) (index : Nat) : EventFileError → Prop
  | track {i : Nat} {t : TrackRecord} (h : FirstAt (fun t => t.charge = 0) r.tracks i t) :
    Defect r index (.unchargedTrack index ⟨t.id⟩)
  | v0 {i : Nat} {v : V0Record} {defect : V0Error} (htracks : ∀ t ∈ r.tracks, t.charge ≠ 0)
      (hfirst : FirstAt (fun v => ¬ v.Sound r.tracks) r.v0s i v)
      (h : v.Defect r.tracks defect) :
    Defect r index (.v0 index defect)

theorem DaughterDefect.not_firstHasSign {v0 id : UInt64} {tracks : List TrackRecord}
    {expected : Sign} {defect : V0Error} (h : DaughterDefect v0 tracks id expected defect) :
    ¬ TrackRecord.FirstHasSign tracks id expected := by
  rintro ⟨i, t, hfirst, hexpected⟩
  cases h with
  | unknown hnone => exact hnone t (List.mem_of_getElem? hfirst.found) hfirst.holds
  | wrongSign hother hfound hwrong =>
    obtain ⟨rfl, rfl⟩ := hfirst.unique hother
    exact hwrong (TrackRecord.hasSign_unique hfound hexpected)

/-! ## What records say -/

/-- A track is the one of a record. It has crossed as many rows as it has clusters, if the
record does not say. -/
structure TrackRecord.Describes (r : TrackRecord) (t : Track) : Prop where
  id : t.id = ⟨r.id⟩
  momentum : t.momentum = r.p
  sign : r.HasSign t.sign
  charged : t.sign ≠ .neutral
  dcaXY : t.dcaXY = r.dcaXY
  dcaZ : t.dcaZ = r.dcaZ
  position : t.position = r.position
  tpcClusters : t.quality.tpcClusters = r.tpcClusters
  givenRows : ∀ rows, r.tpcCrossedRows = some rows → t.quality.tpcCrossedRows = rows
  defaultRows : r.tpcCrossedRows = none → t.quality.tpcCrossedRows = r.tpcClusters
  tpcRefit : t.quality.tpcRefit = r.tpcRefit
  itsRefit : t.quality.itsRefit = r.itsRefit
  itsClusterMap : t.quality.itsClusterMap = r.itsClusterMap

structure V0Record.Describes (r : V0Record) (v : V0) : Prop where
  id : v.id = ⟨r.id⟩
  positive : v.positive = ⟨r.positive⟩
  negative : v.negative = ⟨r.negative⟩
  vertex : v.vertex = r.vertex

/-- An event is the one of a record, with the same tracks and V0s in the same order. -/
structure EventRecord.Describes (r : EventRecord) (event : Event) : Prop where
  primaryVertex : event.primaryVertex = r.primaryVertex
  accepted : event.accepted = r.accepted
  tracks : List.Forall₂ TrackRecord.Describes r.tracks event.tracks
  v0s : List.Forall₂ V0Record.Describes r.v0s event.v0s

/-! ## Tracks -/

namespace TrackRecord

theorem ofCharge?_eq_some_iff {r : TrackRecord} {sign : Sign} :
    Sign.ofCharge? r.charge = some sign ↔ r.HasSign sign ∧ sign ≠ .neutral := by
  unfold Sign.ofCharge?
  split
  · cases sign <;> simp [HasSign] <;> omega
  · split
    · cases sign <;> simp [HasSign] <;> omega
    · cases sign <;> simp [HasSign] <;> omega

theorem toTrack?_eq_none_iff {r : TrackRecord} : r.toTrack? = none ↔ r.charge = 0 := by
  unfold toTrack? Sign.ofCharge?
  rw [Option.map_eq_none_iff]
  split
  · exact iff_of_false nofun (by omega)
  · split
    · exact iff_of_false nofun (by omega)
    · exact iff_of_true rfl (by omega)

theorem toTrack?_eq_some_iff {r : TrackRecord} {t : Track} :
    r.toTrack? = some t ↔ r.Describes t := by
  unfold toTrack?
  rw [Option.map_eq_some_iff]
  constructor
  · rintro ⟨sign, hsign, rfl⟩
    obtain ⟨hsign, hcharged⟩ := ofCharge?_eq_some_iff.mp hsign
    exact ⟨rfl, rfl, hsign, hcharged, rfl, rfl, rfl, rfl, fun rows h => by rw [h]; rfl,
      fun h => by rw [h]; rfl, rfl, rfl, rfl⟩
  · intro h
    refine ⟨t.sign, ofCharge?_eq_some_iff.mpr ⟨h.sign, h.charged⟩, ?_⟩
    have hrows : r.tpcCrossedRows.getD r.tpcClusters = t.quality.tpcCrossedRows := by
      cases hgiven : r.tpcCrossedRows with
      | none => exact (h.defaultRows hgiven).symm
      | some rows => exact (h.givenRows rows hgiven).symm
    obtain ⟨id, momentum, sign, dcaXY, dcaZ, position, quality⟩ := t
    rw [hrows, ← h.id, ← h.momentum, ← h.dcaXY, ← h.dcaZ, ← h.position, ← h.tpcClusters,
      ← h.tpcRefit, ← h.itsRefit, ← h.itsClusterMap]

theorem charge_ne_of_described {records : List TrackRecord} {tracks : List Track}
    (hread : List.Forall₂ Describes records tracks) : ∀ r ∈ records, r.charge ≠ 0 := by
  intro r hr hzero
  obtain ⟨t, _, ht⟩ := exists_mem_of_forall₂ hread hr
  exact ht.charged (hasSign_unique ht.sign hzero)

theorem exists_described {records : List TrackRecord} (h : ∀ r ∈ records, r.charge ≠ 0) :
    ∃ tracks, List.Forall₂ Describes records tracks := by
  induction records with
  | nil => exact ⟨[], .nil⟩
  | cons r rest ih =>
    obtain ⟨t, ht⟩ := Option.ne_none_iff_exists'.mp
      fun hnone : r.toTrack? = none => h r (by simp) (toTrack?_eq_none_iff.mp hnone)
    obtain ⟨tracks, hread⟩ := ih fun s hs => h s (by simp [hs])
    exact ⟨t :: tracks, .cons (toTrack?_eq_some_iff.mp ht) hread⟩

end TrackRecord

/-! ## V0s -/

section

variable {records : List TrackRecord} {tracks : List Track}
  (hread : List.Forall₂ TrackRecord.Describes records tracks)
include hread

/-- The first track with an identity is the one of the first record with it. -/
theorem first_of_find? {id : UInt64} {t : Track} (h : tracks.find? (·.id = ⟨id⟩) = some t) :
    ∃ i r, FirstAt (fun r => r.id = id) records i r ∧ r.Describes t := by
  obtain ⟨i, hfirst⟩ := (FirstAt.find?_eq_some_iff (p := fun t : Track => t.id = ⟨id⟩)
    fun _ => decide_eq_true_iff).mp h
  obtain ⟨r, hr, hdescribes⟩ := hfirst.of_forall₂ hread.flip fun t r (h : r.Describes t) => by
    rw [h.id, TrackId.mk.injEq]
  exact ⟨i, r, hr, hdescribes⟩

theorem none_of_find? {id : UInt64} (h : tracks.find? (·.id = ⟨id⟩) = none) :
    ∀ r ∈ records, r.id ≠ id := by
  intro r hr heq
  obtain ⟨t, ht, hdescribed⟩ := exists_mem_of_forall₂ hread hr
  refine List.find?_eq_none.mp h t ht (decide_eq_true ?_)
  rw [hdescribed.id, heq]

namespace V0Record

variable {r : V0Record}

/-- A daughter passes if the first track with its identity has its sign. -/
theorem checkDaughter_eq_ok_iff {id : UInt64} {expected : Sign} :
    r.checkDaughter tracks id expected = .ok () ↔
      TrackRecord.FirstHasSign records id expected := by
  unfold checkDaughter
  cases hfind : tracks.find? (·.id = ⟨id⟩) with
  | none =>
    refine iff_of_false (fun h => by cases h) ?_
    rintro ⟨i, t, hfirst, _⟩
    exact none_of_find? hread hfind t (List.mem_of_getElem? hfirst.found) hfirst.holds
  | some t =>
    obtain ⟨i, first, hfirst, hdescribes⟩ := first_of_find? hread hfind
    simp only
    split
    · next hsign =>
      exact iff_of_true rfl ⟨i, first, hfirst, hsign ▸ hdescribes.sign⟩
    · next hsign =>
      refine iff_of_false (fun h => by cases h) ?_
      rintro ⟨j, other, hother, hexpected⟩
      obtain ⟨rfl, rfl⟩ := hfirst.unique hother
      exact hsign (TrackRecord.hasSign_unique hdescribes.sign hexpected)

theorem checkDaughter_eq_error_iff {id : UInt64} {expected : Sign} {defect : V0Error} :
    r.checkDaughter tracks id expected = .error defect ↔
      DaughterDefect r.id records id expected defect := by
  unfold checkDaughter
  cases hfind : tracks.find? (·.id = ⟨id⟩) with
  | none =>
    have hnone := none_of_find? hread hfind
    constructor
    · intro h
      cases h
      exact .unknown hnone
    · intro h
      cases h with
      | unknown => rfl
      | wrongSign hfirst =>
        exact absurd hfirst.holds (hnone _ (List.mem_of_getElem? hfirst.found))
  | some t =>
    obtain ⟨i, first, hfirst, hdescribes⟩ := first_of_find? hread hfind
    simp only
    constructor
    · split
      · intro h
        cases h
      · next hsign =>
        intro h
        cases h
        exact .wrongSign hfirst hdescribes.sign hsign
    · intro h
      cases h with
      | unknown hnone =>
        exact absurd hfirst.holds (hnone _ (List.mem_of_getElem? hfirst.found))
      | wrongSign hother hfound hwrong =>
        obtain ⟨rfl, rfl⟩ := hfirst.unique hother
        obtain rfl := TrackRecord.hasSign_unique hfound hdescribes.sign
        rw [if_neg hwrong]

theorem toV0_eq_ok_iff {v : V0} :
    r.toV0 tracks = .ok v ↔ r.Sound records ∧ r.Describes v := by
  unfold toV0
  rw [bind_eq_ok_iff]
  simp only [bind_eq_ok_iff, checkDaughter_eq_ok_iff hread]
  constructor
  · rintro ⟨_, hpositive, _, hnegative, h⟩
    cases h
    exact ⟨⟨hpositive, hnegative⟩, rfl, rfl, rfl, rfl⟩
  · rintro ⟨⟨hpositive, hnegative⟩, hid, hp, hn, hvertex⟩
    obtain ⟨id, positive, negative, vertex⟩ := v
    subst hid hp hn hvertex
    exact ⟨(), hpositive, (), hnegative, rfl⟩

theorem toV0_eq_error_iff {defect : V0Error} :
    r.toV0 tracks = .error defect ↔ r.Defect records defect := by
  unfold toV0
  rw [bind_eq_error_iff]
  simp only [bind_eq_error_iff, checkDaughter_eq_ok_iff hread, checkDaughter_eq_error_iff hread]
  constructor
  · rintro (h | ⟨_, hpositive, h | ⟨_, _, h⟩⟩)
    · exact .positive h
    · exact .negative hpositive h
    · cases h
  · rintro (h | ⟨hpositive, h⟩)
    · exact .inl h
    · exact .inr ⟨(), hpositive, .inl h⟩

end V0Record

end

namespace V0Record

theorem Defect.not_sound {r : V0Record} {tracks : List TrackRecord} {defect : V0Error}
    (h : r.Defect tracks defect) : ¬ r.Sound tracks := by
  intro hsound
  cases h with
  | positive h => exact h.not_firstHasSign hsound.positive
  | negative _ h => exact h.not_firstHasSign hsound.negative

theorem refused_iff {records : List TrackRecord} {tracks : List Track}
    (hread : List.Forall₂ TrackRecord.Describes records tracks) {r : V0Record} :
    (∃ defect, r.toV0 tracks = .error defect) ↔ ¬ r.Sound records :=
  exists_error_iff_not (fun _ h => ((toV0_eq_ok_iff hread).mp h).1)
    fun _ h => ((toV0_eq_error_iff hread).mp h).not_sound

end V0Record

/-! ## Events -/

namespace EventFile

/-- The track of a record, or the defect that refuses it. -/
def readTrack (index : Nat) (r : TrackRecord) : Except EventFileError Track :=
  match r.toTrack? with
  | none => .error (.unchargedTrack index ⟨r.id⟩)
  | some t => .ok t

theorem readTracks_eq (index : Nat) (records : List TrackRecord) :
    readTracks index records = records.mapM (readTrack index) := by
  induction records with
  | nil => rfl
  | cons r rest ih =>
    rw [List.mapM_cons, readTracks, readTrack, ih]
    cases r.toTrack? with
    | none => rfl
    | some t => cases rest.mapM (readTrack index) <;> rfl

/-- The V0 of a record, or the defect that refuses it. -/
def readV0 (index : Nat) (tracks : List Track) (r : V0Record) : Except EventFileError V0 :=
  (r.toV0 tracks).mapError (.v0 index)

theorem readV0s_eq (index : Nat) (tracks : List Track) (records : List V0Record) :
    readV0s index tracks records = records.mapM (readV0 index tracks) := by
  induction records with
  | nil => rfl
  | cons r rest ih =>
    rw [List.mapM_cons, readV0s, readV0, ih]
    cases r.toV0 tracks with
    | error defect => rfl
    | ok v => cases rest.mapM (readV0 index tracks) <;> rfl

theorem readEventsFrom_eq (index : Nat) (records : List EventRecord) :
    readEventsFrom index records =
      (records.zipIdx index).mapM fun r => readEvent r.2 r.1 := by
  induction records generalizing index with
  | nil => rfl
  | cons r rest ih =>
    rw [List.zipIdx_cons, List.mapM_cons, ← ih]
    rfl

theorem readTracks_eq_ok_iff {index : Nat} {records : List TrackRecord} {tracks : List Track} :
    readTracks index records = .ok tracks ↔
      List.Forall₂ TrackRecord.Describes records tracks := by
  have hread : ∀ (r : TrackRecord) (t : Track),
      readTrack index r = .ok t ↔ r.Describes t := by
    intro r t
    rw [← TrackRecord.toTrack?_eq_some_iff]
    unfold readTrack
    cases r.toTrack? <;> simp
  rw [readTracks_eq, mapM_eq_ok_iff]
  simp only [hread]

theorem readTracks_eq_error_iff {index : Nat} {records : List TrackRecord}
    {error : EventFileError} :
    readTracks index records = .error error ↔
      ∃ i t, FirstAt (fun t => t.charge = 0) records i t ∧
        error = .unchargedTrack index ⟨t.id⟩ := by
  have hread : ∀ (r : TrackRecord) (e : EventFileError),
      readTrack index r = .error e ↔ r.charge = 0 ∧ e = .unchargedTrack index ⟨r.id⟩ := by
    intro r e
    rw [← TrackRecord.toTrack?_eq_none_iff]
    unfold readTrack
    cases r.toTrack? <;> simp [eq_comm]
  rw [readTracks_eq, FirstAt.mapM_eq_error_iff]
  simp only [hread, exists_and_left, exists_eq, and_true]
  constructor
  · rintro ⟨i, t, hfirst, _, rfl⟩
    exact ⟨i, t, hfirst, rfl⟩
  · rintro ⟨i, t, hfirst, rfl⟩
    exact ⟨i, t, hfirst, hfirst.holds, rfl⟩

section

variable {records : List TrackRecord} {tracks : List Track}
  (hread : List.Forall₂ TrackRecord.Describes records tracks) {index : Nat}
  {v0Records : List V0Record}
include hread

theorem readV0s_eq_ok_iff {v0s : List V0} :
    readV0s index tracks v0Records = .ok v0s ↔
      List.Forall₂ (fun r v => r.Sound records ∧ r.Describes v) v0Records v0s := by
  have hv0 : ∀ (r : V0Record) (v : V0),
      readV0 index tracks r = .ok v ↔ r.Sound records ∧ r.Describes v := by
    intro r v
    rw [← V0Record.toV0_eq_ok_iff hread]
    unfold readV0
    cases r.toV0 tracks <;> simp [Except.mapError]
  rw [readV0s_eq, mapM_eq_ok_iff]
  simp only [hv0]

theorem readV0s_eq_error_iff {error : EventFileError} :
    readV0s index tracks v0Records = .error error ↔
      ∃ i v defect, FirstAt (fun v => ¬ v.Sound records) v0Records i v ∧
        v.Defect records defect ∧ error = .v0 index defect := by
  have hrefused : ∀ r : V0Record,
      (∃ e, readV0 index tracks r = .error e) ↔ ¬ r.Sound records := by
    intro r
    rw [← V0Record.refused_iff hread]
    unfold readV0
    cases r.toV0 tracks <;> simp [Except.mapError]
  have hdefect : ∀ (r : V0Record) (e : EventFileError), readV0 index tracks r = .error e ↔
      ∃ defect, r.Defect records defect ∧ e = .v0 index defect := by
    intro r e
    simp only [← V0Record.toV0_eq_error_iff hread]
    unfold readV0
    cases r.toV0 tracks <;> simp [Except.mapError, eq_comm]
  rw [readV0s_eq, FirstAt.mapM_eq_error_iff]
  simp only [hrefused]
  simp only [hdefect, exists_and_left]

end

end EventFile

namespace EventRecord

theorem Defect.not_sound {r : EventRecord} {index : Nat} {error : EventFileError}
    (h : r.Defect index error) : ¬ r.Sound := by
  intro hsound
  cases h with
  | track hfirst =>
    exact hsound.tracks _ (List.mem_of_getElem? hfirst.found) hfirst.holds
  | v0 _ hfirst _ => exact hfirst.holds (hsound.v0s _ (List.mem_of_getElem? hfirst.found))

end EventRecord

namespace EventFile

theorem readEvent_eq_ok_iff {index : Nat} {r : EventRecord} {event : Event} :
    readEvent index r = .ok event ↔ r.Sound ∧ r.Describes event := by
  unfold readEvent
  simp only [bind_eq_ok_iff, readTracks_eq_ok_iff]
  constructor
  · rintro ⟨tracks, hread, v0s, hv0s, h⟩
    obtain ⟨hsound, hdescribed⟩ :=
      (List.forall₂_and_left _ _).mp ((readV0s_eq_ok_iff hread).mp hv0s)
    cases h
    exact ⟨⟨TrackRecord.charge_ne_of_described hread, hsound⟩, rfl, rfl, hread, hdescribed⟩
  · rintro ⟨hsound, hdescribed⟩
    have hv0s : readV0s index event.tracks r.v0s = .ok event.v0s :=
      (readV0s_eq_ok_iff hdescribed.tracks).mpr
        ((List.forall₂_and_left _ _).mpr ⟨hsound.v0s, hdescribed.v0s⟩)
    refine ⟨event.tracks, hdescribed.tracks, event.v0s, hv0s, ?_⟩
    rw [← hdescribed.primaryVertex, ← hdescribed.accepted]
    rfl

theorem readEvent_eq_error_iff {index : Nat} {r : EventRecord} {error : EventFileError} :
    readEvent index r = .error error ↔ r.Defect index error := by
  unfold readEvent
  simp only [bind_eq_error_iff, readTracks_eq_ok_iff, readTracks_eq_error_iff]
  constructor
  · rintro (⟨i, t, hfirst, rfl⟩ | ⟨tracks, hread, h | ⟨v0s, _, h⟩⟩)
    · exact .track hfirst
    · obtain ⟨i, v, defect, hfirst, hdefect, rfl⟩ := (readV0s_eq_error_iff hread).mp h
      exact .v0 (TrackRecord.charge_ne_of_described hread) hfirst hdefect
    · cases h
  · intro h
    cases h with
    | track hfirst => exact .inl ⟨_, _, hfirst, rfl⟩
    | v0 htracks hfirst hdefect =>
      obtain ⟨tracks, hread⟩ := TrackRecord.exists_described htracks
      exact .inr ⟨tracks, hread, .inl ((readV0s_eq_error_iff hread).mpr
        ⟨_, _, _, hfirst, hdefect, rfl⟩)⟩

theorem readEvent_refused_iff {index : Nat} {r : EventRecord} :
    (∃ error, readEvent index r = .error error) ↔ ¬ r.Sound :=
  exists_error_iff_not (fun _ h => (readEvent_eq_ok_iff.mp h).1)
    fun _ h => (readEvent_eq_error_iff.mp h).not_sound

/-! ## Files -/

theorem ofRecords_eq_ok_iff {records : List EventRecord} {events : List Event} :
    ofRecords records = .ok events ↔
      List.Forall₂ (fun r event => r.Sound ∧ r.Describes event) records events := by
  unfold ofRecords
  rw [readEventsFrom_eq, mapM_eq_ok_iff]
  simp only [readEvent_eq_ok_iff]
  conv_rhs => rw [← List.zipIdx_map_fst 0 records, List.forall₂_map_left_iff]

theorem ofRecords_eq_error_iff {records : List EventRecord} {error : EventFileError} :
    ofRecords records = .error error ↔
      ∃ i r, FirstAt (fun r => ¬ r.Sound) records i r ∧ r.Defect i error := by
  unfold ofRecords
  rw [readEventsFrom_eq, FirstAt.mapM_eq_error_iff]
  simp only [readEvent_refused_iff]
  simp only [readEvent_eq_error_iff, Prod.exists]
  have hplace := @FirstAt.zipIdx_iff _ (fun r : EventRecord => ¬ r.Sound) records
  constructor
  · rintro ⟨i, r, n, hfirst, hdefect⟩
    obtain ⟨rfl, hfirst⟩ := hplace.mp hfirst
    exact ⟨n, r, hfirst, hdefect⟩
  · rintro ⟨i, r, hfirst, hdefect⟩
    exact ⟨i, r, i, hplace.mpr ⟨rfl, hfirst⟩, hdefect⟩

/-- What the search relies on in an event: it has charged tracks only, and finds the daughters
of its V0s among them, two tracks of opposite charge. -/
structure Supplies (event : Event) : Prop where
  charged : ∀ t ∈ event.tracks, t.sign ≠ .neutral
  daughters : ∀ v ∈ event.v0s, ∃ p n, event.track? v.positive = some p ∧
    event.track? v.negative = some n ∧ p.sign = .positive ∧ n.sign = .negative ∧ p ≠ n

theorem track?_of_firstHasSign {records : List TrackRecord} {event : Event}
    (hread : List.Forall₂ TrackRecord.Describes records event.tracks) {id : UInt64}
    {sign : Sign} (h : TrackRecord.FirstHasSign records id sign) :
    ∃ t, event.track? ⟨id⟩ = some t ∧ t.sign = sign := by
  obtain ⟨i, r, hfirst, hsign⟩ := h
  cases hfind : event.track? ⟨id⟩ with
  | none =>
    have hmem := List.mem_of_getElem? hfirst.found
    exact absurd hfirst.holds (none_of_find? hread hfind r hmem)
  | some t =>
    obtain ⟨j, s, hother, hdescribed⟩ := first_of_find? hread hfind
    obtain ⟨rfl, rfl⟩ := hfirst.unique hother
    exact ⟨t, rfl, TrackRecord.hasSign_unique hdescribed.sign hsign⟩

theorem supplies_of_described {r : EventRecord} {event : Event} (hsound : r.Sound)
    (hdescribed : r.Describes event) : Supplies event := by
  refine ⟨fun t ht => ?_, fun v hv => ?_⟩
  · obtain ⟨_, _, hr⟩ := exists_mem_of_forall₂ hdescribed.tracks.flip ht
    exact hr.charged
  · obtain ⟨s, hs, hv0⟩ := exists_mem_of_forall₂ hdescribed.v0s.flip hv
    have hfirst := hsound.v0s s hs
    obtain ⟨p, hp, hpositive⟩ := track?_of_firstHasSign hdescribed.tracks hfirst.positive
    obtain ⟨n, hn, hnegative⟩ := track?_of_firstHasSign hdescribed.tracks hfirst.negative
    refine ⟨p, n, hv0.positive ▸ hp, hv0.negative ▸ hn, hpositive, hnegative, ?_⟩
    rintro rfl
    exact absurd (hpositive.symm.trans hnegative) (by decide)

end EventFile

/-- A file is read exactly if none of its events has a defect, and then as it stands. A file
that is refused is refused for the first defect of its first event that has one. -/
theorem an_event_file_is_read_or_refused_for_its_first_defect (records : List EventRecord) :
    ((∃ events, EventFile.ofRecords records = .ok events) ↔ ∀ r ∈ records, r.Sound) ∧
      (∀ events, EventFile.ofRecords records = .ok events →
        List.Forall₂ EventRecord.Describes records events ∧
          ∀ event ∈ events, EventFile.Supplies event) ∧
      ∀ error, EventFile.ofRecords records = .error error ↔
        ∃ i r, FirstAt (fun r => ¬ r.Sound) records i r ∧ r.Defect i error := by
  refine ⟨?_, fun events h => ?_, fun _ => EventFile.ofRecords_eq_error_iff⟩
  · cases hrun : EventFile.ofRecords records with
    | ok events =>
      have hread := EventFile.ofRecords_eq_ok_iff.mp hrun
      exact iff_of_true ⟨events, rfl⟩ ((List.forall₂_and_left _ _).mp hread).1
    | error error =>
      obtain ⟨i, r, hfirst, _⟩ := EventFile.ofRecords_eq_error_iff.mp hrun
      refine iff_of_false (fun ⟨_, h⟩ => by cases h) fun hsound => ?_
      exact hfirst.holds (hsound r (List.mem_of_getElem? hfirst.found))
  · have hread := EventFile.ofRecords_eq_ok_iff.mp h
    refine ⟨hread.imp fun _ _ h => h.2, fun event hevent => ?_⟩
    obtain ⟨r, _, hsound, hdescribed⟩ := exists_mem_of_forall₂ hread.flip hevent
    exact EventFile.supplies_of_described hsound hdescribed

end DecaySearch
