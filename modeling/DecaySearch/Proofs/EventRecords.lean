-- Events as an event file would hold them. An event is read back from its record exactly if it
-- has what the search relies on, so that reading never refuses an event that can be searched.
import DecaySearch.Proofs.CascadePairs
import DecaySearch.Proofs.EventReading

namespace DecaySearch

/-! ## Records of events -/

/-- A charge with a sign. -/
def Sign.charge : Sign → Int
  | .positive => 1
  | .negative => -1
  | .neutral => 0

/-- The record of a track. -/
def TrackRecord.ofTrack (t : Track) : TrackRecord where
  id := t.id.value
  p := t.momentum
  charge := t.sign.charge
  dcaXY := t.dcaXY
  dcaZ := t.dcaZ
  position := t.position
  tpcClusters := t.quality.tpcClusters
  tpcCrossedRows := some t.quality.tpcCrossedRows
  tpcRefit := t.quality.tpcRefit
  itsRefit := t.quality.itsRefit
  itsClusterMap := t.quality.itsClusterMap

def V0Record.ofV0 (v : V0) : V0Record := ⟨v.id.value, v.positive.value, v.negative.value, v.vertex⟩

/-- The record of an event, as an event file would hold it. -/
def EventRecord.ofEvent (event : Event) : EventRecord where
  primaryVertex := event.primaryVertex
  accepted := event.accepted
  tracks := event.tracks.map .ofTrack
  v0s := event.v0s.map .ofV0

/-! ## What the records say -/

theorem TrackRecord.hasSign_ofTrack (t : Track) : (TrackRecord.ofTrack t).HasSign t.sign := by
  have hcharge : (ofTrack t).charge = t.sign.charge := rfl
  cases hsign : t.sign <;> simp [HasSign, hcharge, hsign, Sign.charge]

theorem TrackRecord.charge_ofTrack {t : Track} (h : t.sign ≠ .neutral) :
    (TrackRecord.ofTrack t).charge ≠ 0 :=
  fun hzero => h (hasSign_unique (hasSign_ofTrack t) hzero)

theorem TrackRecord.describes_ofTrack {t : Track} (h : t.sign ≠ .neutral) :
    (TrackRecord.ofTrack t).Describes t where
  id := rfl
  momentum := rfl
  sign := hasSign_ofTrack t
  charged := h
  dcaXY := rfl
  dcaZ := rfl
  position := rfl
  tpcClusters := rfl
  givenRows := fun _ hrows => Option.some.inj hrows
  defaultRows := fun hnone => by cases hnone
  tpcRefit := rfl
  itsRefit := rfl
  itsClusterMap := rfl

theorem EventRecord.describes_ofEvent {event : Event}
    (h : ∀ t ∈ event.tracks, t.sign ≠ .neutral) : (EventRecord.ofEvent event).Describes event where
  primaryVertex := rfl
  accepted := rfl
  tracks := by
    unfold ofEvent
    rw [List.forall₂_map_left_iff, List.forall₂_same]
    exact fun t ht => TrackRecord.describes_ofTrack (h t ht)
  v0s := by
    unfold ofEvent
    rw [List.forall₂_map_left_iff, List.forall₂_same]
    exact fun v _ => ⟨rfl, rfl, rfl, rfl⟩

/-- A track that an event finds is the first one with its identity in the record as well. -/
theorem TrackRecord.firstHasSign_of_track? {event : Event} {id : TrackId} {t : Track}
    (h : event.track? id = some t) :
    FirstHasSign (event.tracks.map .ofTrack) id.value t.sign := by
  obtain ⟨i, hfirst⟩ := Cascade.track?_eq_some_iff.mp h
  have hrecords : List.Forall₂ (fun t r => r = TrackRecord.ofTrack t) event.tracks
      (event.tracks.map .ofTrack) := by
    rw [List.forall₂_map_right_iff, List.forall₂_same]
    exact fun _ _ => rfl
  obtain ⟨_, hrecord, rfl⟩ := hfirst.of_forall₂ (q := fun r => r.id = id.value) hrecords (by
    rintro t _ rfl
    exact ⟨congrArg TrackId.value, congrArg TrackId.mk⟩)
  exact ⟨i, _, hrecord, hasSign_ofTrack t⟩

/-! ## Reading an event back -/

namespace EventFile

/-- An event is read back from its record exactly if the search can rely on it. -/
theorem readEvent_ofEvent_iff {number : Nat} {event : Event} :
    readEvent number (.ofEvent event) = .ok event ↔ Supplies event := by
  rw [readEvent_eq_ok_iff]
  refine ⟨fun h => supplies_of_described h.1 h.2, fun h => ⟨⟨?_, ?_⟩, ?_⟩⟩
  · exact List.forall_mem_map.mpr fun t ht => TrackRecord.charge_ofTrack (h.charged t ht)
  · refine List.forall_mem_map.mpr fun v hv => ?_
    obtain ⟨p, n, hp, hn, hpositive, hnegative, _⟩ := h.daughters v hv
    have hfirst := TrackRecord.firstHasSign_of_track? hp
    have hsecond := TrackRecord.firstHasSign_of_track? hn
    rw [hpositive] at hfirst
    rw [hnegative] at hsecond
    exact ⟨hfirst, hsecond⟩
  · exact EventRecord.describes_ofEvent h.charged

end EventFile

end DecaySearch
