-- What toy events are made of. Their tracks are numbered one after the other, from a number
-- that leaves room for those of every other event, and a cascade puts the daughters of its V0
-- and then its bachelor at the end.
import DecaySearch.Proofs.EventRecords
import DecaySearch.Proofs.EventStreams
import DecaySearch.Proofs.ToySource

namespace DecaySearch.Toy

variable {α β : Type}

/-! ## Computations that number their tracks -/

/-- The tracks are numbered one after the other. -/
def Numbered (first : Nat) (tracks : List Track) : Prop :=
  tracks.map (·.id.value.toNat) = List.range' first tracks.length

theorem numbered_append {first : Nat} {tracks others : List Track} (h : Numbered first tracks)
    (h' : Numbered (first + tracks.length) others) : Numbered first (tracks ++ others) := by
  unfold Numbered at *
  rw [List.map_append, h, h', List.length_append, List.range'_append_1]

namespace Make

/-- A computation that gives a result has added tracks which are numbered from the next
identity on. The result and the new tracks have a property. -/
def Makes (make : Make α) (P : α → List Track → Prop) : Prop :=
  ∀ w, Ends (make w)
    (fun r => ∃ added, r.2.made = added.reverse ++ w.made ∧ Numbered w.nextId.toNat added ∧
      r.2.nextId.toNat = w.nextId.toNat + added.length ∧ P r.1 added)
    fun _ => True

/-- A computation that adds no track, and whose result has a property. -/
abbrev MakesNone (make : Make α) (P : α → Prop) : Prop :=
  Makes make fun a added => added = [] ∧ P a

variable {make : Make α} {P : α → List Track → Prop}

theorem makes_pure {a : α} (h : P a []) : Makes (pure a) P := fun _ => ⟨[], rfl, rfl, rfl, h⟩

theorem makesNone_draw (draw : Draw α) : MakesNone (Make.draw draw) fun _ => True := by
  intro w
  have hany : Ends (draw w.stream) (fun _ => True) fun _ => True := by
    cases draw w.stream <;> trivial
  exact hany.bind fun r _ => ⟨[], rfl, rfl, rfl, rfl, trivial⟩

theorem Makes.mono {Q : α → List Track → Prop} (h : Makes make P)
    (hPQ : ∀ a added, P a added → Q a added) : Makes make Q := by
  intro w
  refine (h w).mono ?_ fun _ h => h
  rintro r ⟨added, hmade, hnumbered, hnext, hP⟩
  exact ⟨added, hmade, hnumbered, hnext, hPQ _ _ hP⟩

/-- One computation after the other adds the tracks of the first and then those of the
second. -/
theorem Makes.bind {f : α → Make β} {Q : β → List Track → Prop} (h : Makes make P)
    (hf : ∀ a added, P a added → Makes (f a) fun b others => Q b (added ++ others)) :
    Makes (make >>= f) Q := by
  intro w
  refine (h w).bind ?_
  rintro ⟨a, w'⟩ ⟨added, hmade, hnumbered, hnext, ha⟩
  dsimp only at hmade hnext
  refine (hf a added ha w').mono ?_ fun _ h => h
  rintro r ⟨others, hmade', hnumbered', hnext', hQ⟩
  refine ⟨added ++ others, ?_, ?_, ?_, hQ⟩
  · rw [hmade', hmade, List.reverse_append, List.append_assoc]
  · exact numbered_append hnumbered (hnext ▸ hnumbered')
  · rw [hnext', hnext, List.length_append, Nat.add_assoc]

/-- What adds no track leaves all tracks to what comes after it. -/
theorem MakesNone.bind {f : α → Make β} {R : α → Prop} {Q : β → List Track → Prop}
    (h : MakesNone make R) (hf : ∀ a, R a → Makes (f a) Q) : Makes (make >>= f) Q := by
  refine Makes.bind h ?_
  rintro a _ ⟨rfl, ha⟩
  exact hf a ha

/-- A property of tracks that each computation keeps is kept by all of them. -/
theorem makes_forEach {R : Track → Prop} {f : α → Make β} (xs : List α)
    (h : ∀ a ∈ xs, Makes (f a) fun _ added => ∀ t ∈ added, R t) :
    Makes (forEach f xs) fun _ added => ∀ t ∈ added, R t := by
  induction xs with
  | nil => exact makes_pure fun t ht => absurd ht List.not_mem_nil
  | cons a rest ih =>
    refine (h a List.mem_cons_self).bind fun b added hadded => ?_
    refine (ih fun c hc => h c (List.mem_cons_of_mem a hc)).bind fun bs others hothers => ?_
    refine makes_pure ?_
    rw [List.append_nil]
    exact List.forall_mem_append.mpr ⟨hadded, hothers⟩

theorem makesNone_forEach {f : α → Make β} (h : ∀ a, MakesNone (f a) fun _ => True)
    (xs : List α) : MakesNone (forEach f xs) fun _ => True := by
  have hnone := makes_forEach (R := fun _ => False) xs fun a _ =>
    (h a).mono fun _ added hadded => by simp [hadded.1]
  exact hnone.mono fun _ added hadded => ⟨List.eq_nil_iff_forall_not_mem.mpr hadded, trivial⟩

theorem makes_repeated {R : Track → Prop} {make : Make TrackId}
    (h : Makes make fun _ added => ∀ t ∈ added, R t) (count : Nat) :
    Makes (repeated make count) fun _ added => ∀ t ∈ added, R t := by
  induction count with
  | zero => exact makes_pure fun t ht => absurd ht List.not_mem_nil
  | succ count ih =>
    refine h.bind fun _ added hadded => ih.mono fun _ others hothers => ?_
    exact List.forall_mem_append.mpr ⟨hadded, hothers⟩

end Make

/-! ## Random tracks -/

open Make

variable {s : ToySettings}

theorem makesNone_randomMomentum : MakesNone (randomMomentum s) fun _ => True := by
  unfold randomMomentum
  refine (makesNone_draw _).bind fun pt _ => (makesNone_draw _).bind fun phi _ => ?_
  dsimp only
  split
  · exact (makesNone_draw _).bind fun eta _ => makes_pure ⟨rfl, trivial⟩
  · exact makes_pure ⟨rfl, trivial⟩

theorem makesNone_randomSign : MakesNone randomSign fun sign => sign ≠ .neutral := by
  refine (makesNone_draw _).bind fun positive _ => makes_pure ⟨rfl, ?_⟩
  cases positive <;> decide

theorem makesNone_flight (origin : Position) (momentum : Momentum) (meanLength : Float) :
    MakesNone (flight origin momentum meanLength) fun _ => True :=
  (makesNone_draw _).bind fun _ _ => makes_pure ⟨rfl, trivial⟩

theorem makesNone_smeared (resolution : Float) (point : Position) :
    MakesNone (smeared resolution point) fun _ => True :=
  (makesNone_draw _).bind fun _ _ => (makesNone_draw _).bind fun _ _ =>
    makes_pure ⟨rfl, trivial⟩

theorem makesNone_randomKick : MakesNone randomKick fun _ => True :=
  (makesNone_draw _).bind fun _ _ => (makesNone_draw _).bind fun _ _ =>
    (makesNone_draw _).bind fun _ _ => makes_pure ⟨rfl, trivial⟩

theorem makesNone_split (parent : Momentum) (count : Nat) :
    MakesNone (split parent count) fun _ => True :=
  (makesNone_forEach (fun _ => makesNone_draw _) _).bind fun _ _ =>
    (makesNone_forEach (fun _ => makesNone_randomKick) _).bind fun _ _ =>
      makes_pure ⟨rfl, trivial⟩

theorem makesNone_splitInTwo (parent : Momentum) :
    MakesNone (splitInTwo parent) fun _ => True := by
  refine (makesNone_split parent 2).bind fun daughters _ => ?_
  split
  · exact makes_pure ⟨rfl, trivial⟩
  · exact fun _ => trivial

theorem makesNone_randomQuality : MakesNone (randomQuality s) fun _ => True := by
  unfold randomQuality
  refine (makesNone_draw _).bind fun bad _ => ?_
  split
  · refine (makesNone_draw _).bind fun clusters _ => (makesNone_draw _).bind fun extra _ => ?_
    refine (makesNone_draw _).bind fun tpcRefit _ => (makesNone_draw _).bind fun itsRefit _ => ?_
    exact (makesNone_draw _).bind fun hits _ => makes_pure ⟨rfl, trivial⟩
  · refine (makesNone_draw _).bind fun clusters _ => (makesNone_draw _).bind fun extra _ => ?_
    exact (makesNone_draw _).bind fun hits _ => makes_pure ⟨rfl, trivial⟩

/-- A track is added with the next identity, and with the charge and the place that are asked
for. -/
theorem makes_addTrack (primary : Position) (sign : Sign) (momentum : Momentum)
    (origin : Position) :
    Makes (addTrack s primary sign momentum origin) fun id added =>
      ∃ t, added = [t] ∧ t.id = id ∧ t.sign = sign ∧ t.position = origin := by
  refine makesNone_randomQuality.bind fun quality _ => ?_
  intro w
  have hget : ∀ f : Workshop → Make TrackId, (get >>= f) w = f w w := fun _ => rfl
  rw [hget]
  dsimp only
  split
  · exact trivial
  · rename_i hroom
    exact ⟨[_], rfl, rfl, toNat_add_one hroom, _, rfl, rfl, rfl, rfl⟩

/-! ## Parts of an event -/

theorem charged_of_addTrack {primary origin : Position} {sign : Sign} {momentum : Momentum}
    (hsign : sign ≠ .neutral) :
    Makes (addTrack s primary sign momentum origin) fun _ added =>
      ∀ t ∈ added, t.sign ≠ .neutral := by
  refine (makes_addTrack primary sign momentum origin).mono ?_
  rintro id _ ⟨t, rfl, _, ht, _⟩ u hu
  rw [List.mem_singleton.mp hu, ht]
  exact hsign

theorem makes_addPromptTrack (primary : Position) :
    Makes (addPromptTrack s primary) fun _ added => ∀ t ∈ added, t.sign ≠ .neutral := by
  unfold addPromptTrack
  refine makesNone_randomSign.bind fun sign hsign => ?_
  refine makesNone_randomMomentum.bind fun momentum _ => ?_
  refine (makesNone_smeared _ primary).bind fun origin _ => ?_
  exact charged_of_addTrack hsign

theorem charged_daughterSigns (threeProng conjugate : Bool) :
    ∀ sign ∈ daughterSigns threeProng conjugate, sign ≠ .neutral := by
  cases threeProng <;> cases conjugate <;> decide

theorem makes_addDecay (primary : Position) :
    Makes (addDecay s primary) fun _ added => ∀ t ∈ added, t.sign ≠ .neutral := by
  unfold addDecay
  refine (makesNone_draw _).bind fun threeProng _ => (makesNone_draw _).bind fun conjugate _ => ?_
  refine makesNone_randomMomentum.bind fun parent _ => ?_
  refine (makesNone_flight primary parent s.meanDecayLength).bind fun secondary _ => ?_
  refine (makesNone_split parent _).bind fun daughters _ => ?_
  refine (makes_forEach _ fun x hx => charged_of_addTrack ?_).bind fun _ added hadded => ?_
  · exact charged_daughterSigns threeProng conjugate x.2 (List.of_mem_zip hx).2
  · refine makes_pure ?_
    rwa [List.append_nil]

/-- The tracks of a cascade are the daughters of its V0, which start where it decays, and then
a bachelor. -/
structure CascadeTracks (v0 : V0) (positive negative bachelor : Track) : Prop where
  positive_id : v0.positive = positive.id
  negative_id : v0.negative = negative.id
  positive_sign : positive.sign = .positive
  negative_sign : negative.sign = .negative
  positive_place : positive.position = v0.vertex
  negative_place : negative.position = v0.vertex
  charged : bachelor.sign ≠ .neutral

theorem makes_addCascade (primary : Position) (id : V0Id) :
    Makes (addCascade s primary id) fun v0 added =>
      ∃ p n b, added = [p, n, b] ∧ CascadeTracks v0 p n b := by
  unfold addCascade
  refine makesNone_randomSign.bind fun bachelorSign hsign => ?_
  refine makesNone_randomMomentum.bind fun parent _ => ?_
  refine (makesNone_flight primary parent s.meanDecayLength).bind fun secondary _ => ?_
  refine (makesNone_splitInTwo parent).bind fun (bachelor, neutral) _ => ?_
  refine (makesNone_flight secondary neutral s.v0MeanDecayLength).bind fun vertex _ => ?_
  refine (makesNone_splitInTwo neutral).bind fun (plus, minus) _ => ?_
  refine (makes_addTrack primary .positive plus vertex).bind ?_
  rintro positive _ ⟨p, rfl, rfl, hpositive, hp⟩
  refine (makes_addTrack primary .negative minus vertex).bind ?_
  rintro negative _ ⟨n, rfl, rfl, hnegative, hn⟩
  refine (makes_addTrack primary bachelorSign bachelor secondary).bind ?_
  rintro _ _ ⟨b, rfl, _, hbachelor, _⟩
  exact makes_pure ⟨p, n, b, rfl, rfl, rfl, hpositive, hnegative, hp, hn, hbachelor ▸ hsign⟩

/-- All tracks are charged. There is at most one V0, and then the tracks of its cascade are the
last ones. -/
structure Parts (v0s : List V0) (tracks : List Track) : Prop where
  charged : ∀ t ∈ tracks, t.sign ≠ .neutral
  cascade : v0s = [] ∨ ∃ v0 before p n b, v0s = [v0] ∧ tracks = before ++ [p, n, b] ∧
    CascadeTracks v0 p n b

/-- Charged tracks may come before the parts of an event. -/
theorem Parts.append {v0s : List V0} {before tracks : List Track}
    (hbefore : ∀ t ∈ before, t.sign ≠ .neutral) (h : Parts v0s tracks) :
    Parts v0s (before ++ tracks) where
  charged := List.forall_mem_append.mpr ⟨hbefore, h.charged⟩
  cascade := by
    refine h.cascade.imp_right ?_
    rintro ⟨v0, earlier, p, n, b, hv0s, rfl, hcascade⟩
    exact ⟨v0, before ++ earlier, p, n, b, hv0s, (List.append_assoc ..).symm, hcascade⟩

theorem parts_of_cascade {v0 : V0} {p n b : Track} (h : CascadeTracks v0 p n b) :
    Parts [v0] [p, n, b] where
  charged := by simp [h.positive_sign, h.negative_sign, h.charged]
  cascade := .inr ⟨v0, [], p, n, b, rfl, rfl, h⟩

theorem makes_addAll (primary : Position) (index : UInt64) :
    Makes (addAll s primary index) Parts := by
  unfold addAll
  refine (makesNone_draw _).bind fun prompt _ => ?_
  refine (makes_repeated (makes_addPromptTrack primary) prompt.toNat).bind
    fun _ prompts hprompts => ?_
  have hlast : Makes (do
      let cascades ← Make.draw (Draw.chance (Draw.clampProbability s.cascadeProbability))
      if cascades then
        let v0 ← addCascade s primary ⟨firstId index⟩
        pure [v0]
      else pure []) Parts := by
    refine (makesNone_draw _).bind fun cascades _ => ?_
    split
    · refine (makes_addCascade primary _).bind ?_
      rintro v0 _ ⟨p, n, b, rfl, hcascade⟩
      exact makes_pure (parts_of_cascade hcascade)
    · exact makes_pure ⟨fun t ht => absurd ht List.not_mem_nil, .inl rfl⟩
  refine (makesNone_draw _).bind fun decays _ => ?_
  dsimp only
  split
  · refine (makes_addDecay primary).bind fun _ daughters hdaughters => ?_
    exact hlast.mono fun _ tracks h => (h.append hdaughters).append hprompts
  · exact hlast.mono fun _ tracks h => h.append hprompts

/-! ## Events -/

/-- An event has numbered its tracks from the first identity of its index on. -/
theorem ends_generateFrom (g : Generator) (stream : Stream) (index : UInt64) :
    Ends (g.generateFrom stream index)
      (fun event => Numbered (firstId index).toNat event.tracks ∧
        Parts event.v0s event.tracks) fun _ => True := by
  unfold Generator.generateFrom
  have hvertex : Ends (drawVertex g.settings stream) (fun _ => True) fun _ => True := by
    cases drawVertex g.settings stream <;> trivial
  refine hvertex.bind ?_
  rintro ⟨⟨primary, accepted⟩, rest⟩ _
  refine (makes_addAll primary index ⟨rest, firstId index, []⟩).bind ?_
  rintro ⟨v0s, workshop⟩ ⟨added, hmade, hnumbered, _, hparts⟩
  have htracks : workshop.made.reverse = added := by
    rw [hmade, List.append_nil, List.reverse_reverse]
  show Numbered _ workshop.made.reverse ∧ Parts v0s workshop.made.reverse
  rw [htracks]
  exact ⟨hnumbered, hparts⟩

theorem toNat_firstId {index : UInt64} (h : index.toNat < 2 ^ 48) :
    (firstId index).toNat = index.toNat * 2 ^ 16 := by
  unfold firstId
  rw [UInt64.toNat_shiftLeft]
  show index.toNat <<< 16 % 2 ^ 64 = _
  rw [Nat.shiftLeft_eq]
  exact Nat.mod_eq_of_lt (by omega)

section

variable {first : Nat} {tracks : List Track} (h : Numbered first tracks)
include h

theorem Numbered.id_eq {k : Nat} {t : Track} (ht : tracks[k]? = some t) :
    t.id.value.toNat = first + k := by
  obtain ⟨hk, rfl⟩ := List.getElem?_eq_some_iff.mp ht
  have hids := congrArg (·[k]?) h
  simpa [hk] using hids

theorem Numbered.nodup : (tracks.map (·.id)).Nodup := by
  apply List.Nodup.of_map (fun id : TrackId => id.value.toNat)
  rw [List.map_map]
  show (tracks.map (·.id.value.toNat)).Nodup
  rw [h]
  exact List.nodup_range'

theorem Numbered.id_bounds {t : Track} (ht : t ∈ tracks) :
    first ≤ t.id.value.toNat ∧ t.id.value.toNat < first + tracks.length := by
  obtain ⟨k, hk⟩ := List.getElem?_of_mem ht
  obtain ⟨hlt, _⟩ := List.getElem?_eq_some_iff.mp hk
  rw [h.id_eq hk]
  omega

end

/-- The daughters of a V0 are found among the tracks of an event, a positive and a negative one
that start where the V0 decays. The last track is a bachelor, and neither of them. -/
structure Linked (event : Event) (v0 : V0) : Prop where
  positive : ∃ p, event.track? v0.positive = some p ∧ p.sign = .positive ∧ p.position = v0.vertex
  negative : ∃ n, event.track? v0.negative = some n ∧ n.sign = .negative ∧ n.position = v0.vertex
  bachelor : ∃ b, event.tracks.getLast? = some b ∧ b.sign ≠ .neutral ∧ b.id ≠ v0.positive ∧
    b.id ≠ v0.negative

/-- What the generator promises about the event of an index. -/
structure Consistent (index : Nat) (event : Event) : Prop where
  numbered : ∀ k t, event.tracks[k]? = some t → t.id.value.toNat = index * 2 ^ 16 + k
  distinct : (event.tracks.map (·.id)).Nodup
  charged : ∀ t ∈ event.tracks, t.sign ≠ .neutral
  one_v0 : event.v0s.length ≤ 1
  linked : ∀ v0 ∈ event.v0s, Linked event v0
  readable : ∀ number, EventFile.readEvent number (.ofEvent event) = .ok event

/-- A track is found by its identity if no other track has it. -/
theorem track?_of_nodup {event : Event} (hids : (event.tracks.map (·.id)).Nodup) {t : Track}
    (ht : t ∈ event.tracks) : event.track? t.id = some t := by
  unfold Event.track?
  cases hfind : event.tracks.find? (·.id = t.id) with
  | none => exact absurd (decide_eq_true rfl) (List.find?_eq_none.mp hfind t ht)
  | some u =>
    have hid : u.id = t.id := by simpa using List.find?_some hfind
    exact congrArg some (List.inj_on_of_nodup_map hids (List.mem_of_find?_eq_some hfind) ht hid)

theorem linked_of_parts {event : Event} (hids : (event.tracks.map (·.id)).Nodup)
    (hparts : Parts event.v0s event.tracks) : ∀ v0 ∈ event.v0s, Linked event v0 := by
  intro v0 hv0
  rcases hparts.cascade with hnone | ⟨v0', before, p, n, b, hone, htracks, hcascade⟩
  · rw [hnone] at hv0
    cases hv0
  · rw [hone, List.mem_singleton] at hv0
    subst hv0
    have hp := track?_of_nodup hids (t := p) (by simp [htracks])
    have hn := track?_of_nodup hids (t := n) (by simp [htracks])
    have hlast : (p.id ≠ n.id ∧ p.id ≠ b.id) ∧ n.id ≠ b.id := by
      rw [htracks, List.map_append, List.nodup_append] at hids
      simpa using hids.2.1
    rw [← hcascade.positive_id] at hp hlast
    rw [← hcascade.negative_id] at hn hlast
    exact ⟨⟨p, hp, hcascade.positive_sign, hcascade.positive_place⟩,
      ⟨n, hn, hcascade.negative_sign, hcascade.negative_place⟩,
      ⟨b, by simp [htracks], hcascade.charged, hlast.1.2.symm, hlast.2.symm⟩⟩

/-- An event with such parts has all that a search relies on. -/
theorem supplies_of_parts {event : Event} (hids : (event.tracks.map (·.id)).Nodup)
    (hparts : Parts event.v0s event.tracks) : EventFile.Supplies event where
  charged := hparts.charged
  daughters := by
    intro v0 hv0
    obtain ⟨⟨p, hp, hpositive, _⟩, ⟨n, hn, hnegative, _⟩, _⟩ := linked_of_parts hids hparts v0 hv0
    refine ⟨p, n, hp, hn, hpositive, hnegative, ?_⟩
    rintro rfl
    exact absurd (hpositive.symm.trans hnegative) (by decide)

theorem consistent_of_parts {index : UInt64} (hindex : index.toNat < 2 ^ 48) {event : Event}
    (hnumbered : Numbered (firstId index).toNat event.tracks)
    (hparts : Parts event.v0s event.tracks) : Consistent index.toNat event where
  numbered := fun k t ht => toNat_firstId hindex ▸ hnumbered.id_eq ht
  distinct := hnumbered.nodup
  charged := hparts.charged
  one_v0 := by
    rcases hparts.cascade with hnone | ⟨v0, _, _, _, _, hone, _⟩
    · simp [hnone]
    · simp [hone]
  linked := linked_of_parts hnumbered.nodup hparts
  readable := fun _ =>
    EventFile.readEvent_ofEvent_iff.mpr (supplies_of_parts hnumbered.nodup hparts)

/-- An event that was drawn has such parts. -/
theorem of_generateFrom {g : Generator} {stream : Stream} {index : UInt64} {event : Event}
    (h : g.generateFrom stream index = .ok event) :
    Numbered (firstId index).toNat event.tracks ∧ Parts event.v0s event.tracks := by
  have hends := ends_generateFrom g stream index
  rw [h] at hends
  exact hends

/-- Whatever is drawn, the tracks of an event are numbered from its own first identity on, its
V0 is made of two of them, and an event file could hold it. Events of different indices share
no identity. -/
theorem toy_events_are_consistent_and_share_no_track {g : Generator} {stream : Stream}
    {index : UInt64} {event : Event} (hevent : g.generateFrom stream index = .ok event)
    (hindex : index.toNat < 2 ^ 48) (hroom : event.tracks.length ≤ 2 ^ 16) :
    Consistent index.toNat event ∧
      ∀ (g' : Generator) (stream' : Stream) (index' : UInt64) (event' : Event),
        g'.generateFrom stream' index' = .ok event' → index'.toNat < 2 ^ 48 →
        event'.tracks.length ≤ 2 ^ 16 → index' ≠ index →
        ∀ t ∈ event.tracks, ∀ t' ∈ event'.tracks, t.id ≠ t'.id := by
  obtain ⟨hnumbered, hparts⟩ := of_generateFrom hevent
  refine ⟨consistent_of_parts hindex hnumbered hparts, ?_⟩
  intro g' stream' index' event' hevent' hindex' hroom' hne t ht t' ht' hsame
  have hbounds := hnumbered.id_bounds ht
  have hbounds' := (of_generateFrom hevent').1.id_bounds ht'
  rw [toNat_firstId hindex] at hbounds
  rw [toNat_firstId hindex', ← hsame] at hbounds'
  -- Each index has 65536 identities of its own.
  have hindices : index'.toNat = index.toNat := by omega
  exact hne (UInt64.toNat_inj.mp hindices)

/-- A generator whose events have at most one prompt track, and always a cascade. -/
def cascading : Generator :=
  ⟨{ ToySettings.standard with
      maxPromptTracks := 1, decayProbability := 0, cascadeProbability := 1 }⟩

theorem exists_of_shape {g : Generator} {index : UInt64} {tracks v0s : Nat}
    (h : (g.generate index).toOption.map (fun event => (event.tracks.length, event.v0s.length)) =
      some (tracks, v0s)) :
    ∃ event, g.generate index = .ok event ∧ event.tracks.length = tracks ∧
      event.v0s.length = v0s := by
  cases hevent : g.generate index with
  | error fault =>
    rw [hevent] at h
    cases h
  | ok event =>
    rw [hevent] at h
    obtain ⟨htracks, hv0s⟩ := Prod.mk.inj (Option.some.inj h)
    exact ⟨event, rfl, htracks, hv0s⟩

/-- A prompt track is followed by the three tracks of a cascade, and none of them is a track of
the next event, which is a cascade alone. -/
theorem a_cascade_is_linked_to_its_v0 :
    ∃ event next, cascading.generate 3 = .ok event ∧ cascading.generate 4 = .ok next ∧
      (3 : UInt64).toNat < 2 ^ 48 ∧ (4 : UInt64).toNat < 2 ^ 48 ∧
      event.tracks.length = 4 ∧ event.v0s.length = 1 ∧ next.tracks.length = 3 ∧
      Consistent 3 event ∧ ∀ t ∈ event.tracks, ∀ t' ∈ next.tracks, t.id ≠ t'.id := by
  obtain ⟨event, hevent, htracks, hv0s⟩ :=
    exists_of_shape (show (cascading.generate 3).toOption.map _ = some (4, 1) by decide +kernel)
  obtain ⟨next, hnext, hnextTracks, _⟩ :=
    exists_of_shape (show (cascading.generate 4).toOption.map _ = some (3, 1) by decide +kernel)
  refine ⟨event, next, hevent, hnext, by decide, by decide, htracks, hv0s, hnextTracks, ?_⟩
  rw [Generator.generate_eq] at hevent hnext
  obtain ⟨hconsistent, hothers⟩ :=
    toy_events_are_consistent_and_share_no_track hevent (by decide) (by rw [htracks]; decide)
  exact ⟨hconsistent, hothers _ _ _ next hnext (by decide) (by rw [hnextTracks]; decide)
    (by decide)⟩

end DecaySearch.Toy
