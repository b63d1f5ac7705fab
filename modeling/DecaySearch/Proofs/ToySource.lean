-- Which settings let the generator of toy events run, and which make it fail. The checks of
-- a configuration look at some settings only, so that not every one that passes them can
-- be drawn from.
import DecaySearch.Proofs.Draws
import DecaySearch.Proofs.Robustness

namespace DecaySearch

/-! ## Settings that can be drawn from -/

namespace ToySettings

/-- The ranges of momenta can be drawn from. Without a range of pseudorapidities, none is
drawn. -/
def DrawsMomenta (s : ToySettings) : Prop :=
  Toy.Draw.Spans s.ptMin s.ptMax ∧ (0 < s.etaMax → Toy.Draw.Spans (-s.etaMax) s.etaMax)

/-- What every track needs. -/
def DrawsTracks (s : ToySettings) : Prop :=
  s.DrawsMomenta ∧ s.badTrackProbability.isNaN = false

/-- Every range that a toy event may draw from is one, and every probability is a number. -/
structure Drawable (s : ToySettings) : Prop where
  vertex : Toy.Draw.Centred s.vertexSpreadZ
  resolution : Toy.Draw.Centred s.resolution
  tracks : s.DrawsTracks
  decay : s.decayProbability.isNaN = false
  threeProng : s.threeProngFraction.isNaN = false
  cascade : s.cascadeProbability.isNaN = false
  rejected : s.rejectedEventProbability.isNaN = false

/-- What an event with a number of tracks has drawn from. No more than six tracks come from
decays, which are not smeared. -/
structure DrawnFrom (s : ToySettings) (count : Nat) : Prop where
  vertex : Toy.Draw.Centred s.vertexSpreadZ
  rejected : s.rejectedEventProbability.isNaN = false
  decay : s.decayProbability.isNaN = false
  cascade : s.cascadeProbability.isNaN = false
  threeProng : 1 ≤ s.decayProbability → s.threeProngFraction.isNaN = false
  tracks : 0 < count → s.DrawsTracks
  resolution : 6 < count → Toy.Draw.Centred s.resolution

end ToySettings

namespace Toy

variable {α β : Type}

/-! ## Computations that add tracks -/

/-- How a computation may fail that numbers its tracks up to a bound: a draw misses what it
needs, or the numbers do not fit into a word. -/
def Fails (C : Prop) (bound : Nat) (fault : Fault) : Prop :=
  Missing C fault ∨ (fault = .counterOverflow ∧ 2 ^ 64 ≤ bound)

theorem Fails.mono {C : Prop} {bound wider : Nat} {fault : Fault} (h : Fails C bound fault)
    (hbound : bound ≤ wider) : Fails C wider fault := by
  rcases h with hmissing | ⟨hfault, hfull⟩
  · exact Or.inl hmissing
  · exact Or.inr ⟨hfault, Nat.le_trans hfull hbound⟩

namespace Make

/-- A computation adds at most `n` tracks and numbers them one after the other, if its draws
find what they need and the numbers do not run out. What it returns has a property, as has
the number of tracks. -/
def Adds (C : Prop) (n : Nat) (make : Make α) (P : α → Nat → Prop) : Prop :=
  ∀ w, Ends (make w)
    (fun r => ∃ k ≤ n, r.2.made.length = w.made.length + k ∧
      r.2.nextId.toNat = w.nextId.toNat + k ∧ P r.1 k)
    (Fails C (w.nextId.toNat + n))

variable {C : Prop} {n m : Nat} {make : Make α} {P : α → Nat → Prop}

theorem adds_pure {a : α} (h : P a 0) : Adds C 0 (pure a) P :=
  fun _ => ⟨0, Nat.le_refl 0, rfl, rfl, h⟩

theorem adds_draw {D : Prop} {draw : Draw α} {Q : α → Prop} (h : draw.Gives D Q) (hCD : C → D) :
    Adds C 0 (Make.draw draw) fun a _ => D ∧ Q a := by
  intro w
  refine ((h w.stream).mono (fun r hr => hr) fun fault hmissing => ?_).bind fun r hr => ?_
  · exact Or.inl (hmissing.mono hCD)
  · exact ⟨0, Nat.le_refl 0, rfl, rfl, hr⟩

theorem Adds.mono {Q : α → Nat → Prop} (h : Adds C n make P) (hn : n ≤ m)
    (hPQ : ∀ a k, k ≤ n → P a k → Q a k) : Adds C m make Q := by
  intro w
  refine (h w).mono ?_ fun _ hfails => hfails.mono (Nat.add_le_add_left hn _)
  rintro r ⟨k, hk, hmade, hid, hP⟩
  exact ⟨k, Nat.le_trans hk hn, hmade, hid, hPQ _ _ hk hP⟩

/-- One computation after the other adds what each of them adds. -/
theorem Adds.bind {f : α → Make β} {Q : β → Nat → Prop} (h : Adds C n make P)
    (hf : ∀ a i, i ≤ n → P a i → Adds C m (f a) fun b j => Q b (i + j)) :
    Adds C (n + m) (make >>= f) Q := by
  intro w
  refine ((h w).mono (fun r hr => hr) fun _ hfails => hfails.mono (by omega)).bind ?_
  rintro ⟨a, w'⟩ ⟨i, hi, hmade, hid, ha⟩
  dsimp only at hmade hid
  refine (hf a i hi ha w').mono ?_ fun _ hfails => hfails.mono (by omega)
  rintro r ⟨j, hj, hmade', hid', hQ⟩
  exact ⟨i + j, by omega, by omega, by omega, hQ⟩

/-- What adds no track leaves the count to what comes after it. -/
theorem Adds.free_bind {f : α → Make β} {Q : β → Nat → Prop} (h : Adds C 0 make P)
    (hf : ∀ a, P a 0 → Adds C m (f a) Q) : Adds C m (make >>= f) Q := by
  rw [← Nat.zero_add m]
  refine h.bind fun a i hi ha => ?_
  obtain rfl := Nat.le_zero.mp hi
  simp only [Nat.zero_add]
  exact hf a ha

/-- A result that is only rewritten adds nothing. -/
theorem Adds.bind_pure {f : α → β} {Q : β → Nat → Prop} (h : Adds C n make P)
    (hPQ : ∀ a k, k ≤ n → P a k → Q (f a) k) : Adds C n (make >>= fun a => pure (f a)) Q :=
  h.bind (m := 0) fun a i hi ha => adds_pure (hPQ a i hi ha)

/-- Each run of a computation adds what one of them adds. -/
theorem adds_forEach {f : α → Make β} {D : Prop}
    (h : ∀ a, Adds C n (f a) fun _ k => 0 < k → D) (xs : List α) :
    Adds C (n * xs.length) (forEach f xs) fun bs k => bs.length = xs.length ∧ (0 < k → D) := by
  induction xs with
  | nil => exact adds_pure ⟨rfl, fun h => absurd h (Nat.lt_irrefl 0)⟩
  | cons a rest ih =>
    rw [List.length_cons, Nat.mul_succ, Nat.add_comm]
    refine (h a).bind fun b i _ hi => ih.bind_pure ?_
    rintro bs j _ ⟨hlength, hj⟩
    refine ⟨congrArg (· + 1) hlength, fun hadded => ?_⟩
    rcases Nat.eq_zero_or_pos i with rfl | hpositive
    · exact hj (by omega)
    · exact hi hpositive

/-- Each of the repeated tracks shows what one of them shows. -/
theorem adds_repeated {make : Make TrackId} {D : Prop} (h : Adds C 1 make fun _ _ => D)
    (count : Nat) : Adds C count (repeated make count) fun _ k => 0 < k → D := by
  induction count with
  | zero => exact adds_pure fun h => absurd h (Nat.lt_irrefl 0)
  | succ count ih =>
    rw [repeated, Nat.add_comm count 1]
    refine h.bind fun _ i _ hD => ?_
    exact ih.mono (Nat.le_refl _) fun _ _ _ _ _ => hD

end Make

/-! ## Random tracks -/

section

open Make

variable {s : ToySettings}

theorem adds_randomMomentum :
    Adds s.Drawable 0 (randomMomentum s) fun _ _ => s.DrawsMomenta := by
  have hturn : Draw.Always (.between 0 turn) fun _ => True :=
    (Draw.gives_between 0 turn).congr (iff_true_intro (by decide +kernel))
  unfold randomMomentum
  refine (adds_draw (Draw.gives_between _ _) fun h => h.tracks.1.1).free_bind fun pt hpt => ?_
  refine (adds_draw hturn fun _ => trivial).free_bind fun phi _ => ?_
  dsimp only
  split
  · refine (adds_draw (Draw.gives_between _ _) fun h => h.tracks.1.2 ‹_›).bind_pure ?_
    exact fun _ _ _ heta => ⟨hpt.1, fun _ => heta.1⟩
  · rename_i hflat
    exact adds_pure ⟨hpt.1, fun heta => absurd heta hflat⟩

theorem adds_randomSign (C : Prop) : Adds C 0 randomSign fun _ _ => True :=
  (adds_draw Draw.always_chance_half fun _ => trivial).bind_pure fun _ _ _ _ => trivial

theorem adds_flight (C : Prop) (origin : Position) (momentum : Momentum) (meanLength : Float) :
    Adds C 0 (flight origin momentum meanLength) fun _ _ => True :=
  (adds_draw Draw.always_unitInterval fun _ => trivial).bind_pure fun _ _ _ _ => trivial

theorem adds_smeared (point : Position) :
    Adds s.Drawable 0 (smeared s.resolution point) fun _ _ => Draw.Centred s.resolution := by
  have hdraw := adds_draw (C := s.Drawable) (Draw.gives_symmetric s.resolution) fun h => h.resolution
  refine hdraw.free_bind fun dx hdx => ?_
  exact hdraw.bind_pure fun _ _ _ _ => hdx.1

theorem adds_randomKick (C : Prop) : Adds C 0 randomKick fun _ _ => True := by
  have hkick : Draw.Always (.between (-0.5) 0.5) fun _ => True :=
    (Draw.gives_between _ _).congr (iff_true_intro (by decide +kernel))
  have hdraw := adds_draw (C := C) hkick fun _ => trivial
  refine hdraw.free_bind fun x _ => hdraw.free_bind fun y _ => ?_
  exact hdraw.bind_pure fun _ _ _ _ => trivial

/-- Splitting a momentum gives as many as are asked for. -/
theorem adds_split (C : Prop) (parent : Momentum) (count : Nat) :
    Adds C 0 (split parent count) fun daughters _ => daughters.length = count := by
  have hweight : Draw.Always (.between 0.5 1.5) fun _ => True :=
    (Draw.gives_between _ _).congr (iff_true_intro (by decide +kernel))
  have hweights := adds_forEach (C := C) (n := 0) (D := True)
    (f := fun _ : Nat => Make.draw (.between 0.5 1.5))
    (fun _ => (adds_draw hweight fun _ => trivial).mono (Nat.le_refl 0) fun _ _ _ _ _ => trivial)
    (List.range count)
  have hkicks := adds_forEach (C := C) (n := 0) (D := True) (f := fun _ : Nat => randomKick)
    (fun _ => (adds_randomKick C).mono (Nat.le_refl 0) fun _ _ _ _ _ => trivial)
    (List.range count)
  rw [Nat.zero_mul, List.length_range] at hweights hkicks
  refine hweights.free_bind fun weights hw => ?_
  refine hkicks.bind_pure fun kicks _ _ hk => ?_
  rw [List.length_zipWith, hw.1, hk.1, Nat.min_self]

theorem adds_splitInTwo (C : Prop) (parent : Momentum) :
    Adds C 0 (splitInTwo parent) fun _ _ => True := by
  refine (adds_split C parent 2).free_bind fun daughters hlength => ?_
  match daughters, hlength with
  | [a, b], _ => exact adds_pure trivial

theorem adds_randomQuality :
    Adds s.Drawable 0 (randomQuality s) fun _ _ => s.badTrackProbability.isNaN = false := by
  unfold randomQuality
  refine (adds_draw (Draw.gives_chance_clampProbability _) fun h => h.tracks.2).free_bind
    fun bad hbad => ?_
  have h16 : ∀ low high, Adds s.Drawable 0 (Make.draw (.between16 low high)) fun _ _ => True :=
    fun low high => (adds_draw (Draw.always_between16 low high) fun _ => trivial).mono
      (Nat.le_refl 0) fun _ _ _ _ => trivial
  have hbyte := adds_draw (C := s.Drawable) Draw.always_byte fun _ => trivial
  have hhalf := adds_draw (C := s.Drawable) Draw.always_chance_half fun _ => trivial
  split
  · refine (h16 20 70).free_bind fun clusters _ => (h16 0 10).free_bind fun extra _ => ?_
    refine hhalf.free_bind fun tpcRefit _ => hhalf.free_bind fun itsRefit _ => ?_
    exact hbyte.bind_pure fun _ _ _ _ => hbad.1
  · refine (h16 70 150).free_bind fun clusters _ => (h16 0 10).free_bind fun extra _ => ?_
    exact hbyte.bind_pure fun _ _ _ _ => hbad.1

/-- The word after another one is the next number, unless it is zero. -/
theorem toNat_add_one {word : UInt64} (h : word + 1 ≠ 0) :
    (word + 1).toNat = word.toNat + 1 := by
  have hword := word.toNat_lt
  have hwraps : (word.toNat + 1) % 2 ^ 64 ≠ 0 := by
    intro hzero
    apply h
    rw [← UInt64.toNat_inj, UInt64.toNat_add]
    exact hzero
  rw [UInt64.toNat_add]
  apply Nat.mod_eq_of_lt
  show word.toNat + 1 < 2 ^ 64
  omega

theorem adds_addTrack (primary : Position) (sign : Sign) (momentum : Momentum)
    (origin : Position) :
    Adds s.Drawable 1 (addTrack s primary sign momentum origin)
      fun _ _ => s.badTrackProbability.isNaN = false := by
  refine adds_randomQuality.free_bind fun quality hbad => ?_
  intro w
  have hid := w.nextId.toNat_lt
  have hget : ∀ f : Workshop → Make TrackId, (get >>= f) w = f w w := fun _ => rfl
  rw [hget]
  dsimp only
  split
  · rename_i hfull
    rw [← UInt64.toNat_inj, UInt64.toNat_add] at hfull
    have hwraps : (w.nextId.toNat + 1) % 2 ^ 64 = 0 := hfull
    exact Or.inr ⟨rfl, by omega⟩
  · rename_i hroom
    exact ⟨1, Nat.le_refl 1, rfl, toNat_add_one hroom, hbad⟩

/-! ## Parts of an event -/

theorem adds_addPromptTrack (primary : Position) :
    Adds s.Drawable 1 (addPromptTrack s primary)
      fun _ _ => s.DrawsTracks ∧ Draw.Centred s.resolution := by
  unfold addPromptTrack
  refine (adds_randomSign _).free_bind fun sign _ => ?_
  refine adds_randomMomentum.free_bind fun momentum hmomentum => ?_
  refine (adds_smeared primary).free_bind fun origin hresolution => ?_
  exact (adds_addTrack primary sign momentum origin).mono (Nat.le_refl 1)
    fun _ _ _ hbad => ⟨⟨hmomentum, hbad⟩, hresolution⟩

theorem length_daughterSigns (threeProng conjugate : Bool) :
    (daughterSigns threeProng conjugate).length ≤ 3 := by
  cases threeProng <;> cases conjugate <;> decide

theorem adds_addDecay (primary : Position) :
    Adds s.Drawable 3 (addDecay s primary)
      fun _ k => s.threeProngFraction.isNaN = false ∧ (0 < k → s.DrawsTracks) := by
  unfold addDecay
  refine (adds_draw (Draw.gives_chance_clampProbability _) fun h => h.threeProng).free_bind
    fun threeProng hthree => ?_
  refine (adds_draw Draw.always_chance_half fun _ => trivial).free_bind fun conjugate _ => ?_
  refine adds_randomMomentum.free_bind fun parent hmomentum => ?_
  refine (adds_flight _ primary parent s.meanDecayLength).free_bind fun secondary _ => ?_
  refine (adds_split _ parent _).free_bind fun daughters hlength => ?_
  have htrack : ∀ x : Momentum × Sign, Adds s.Drawable 1 (addTrack s primary x.2 x.1 secondary)
      fun _ k => 0 < k → s.badTrackProbability.isNaN = false := fun x =>
    (adds_addTrack primary x.2 x.1 secondary).mono (Nat.le_refl 1) fun _ _ _ hbad _ => hbad
  have htracks := adds_forEach htrack (daughters.zip (daughterSigns threeProng conjugate))
  refine (htracks.bind_pure fun _ k _ hk => ?_).mono ?_ fun _ _ _ h => h
  · exact ⟨hthree.1, fun hadded => ⟨hmomentum, hk.2 hadded⟩⟩
  · rw [Nat.one_mul, List.length_zip, hlength, Nat.min_self]
    exact length_daughterSigns threeProng conjugate

theorem adds_addCascade (primary : Position) (v0 : V0Id) :
    Adds s.Drawable 3 (addCascade s primary v0) fun _ _ => s.DrawsTracks := by
  unfold addCascade
  refine (adds_randomSign _).free_bind fun bachelorSign _ => ?_
  refine adds_randomMomentum.free_bind fun parent hmomentum => ?_
  refine (adds_flight _ primary parent s.meanDecayLength).free_bind fun secondary _ => ?_
  refine (adds_splitInTwo _ parent).free_bind fun (bachelor, neutral) _ => ?_
  refine (adds_flight _ secondary neutral s.v0MeanDecayLength).free_bind fun vertex _ => ?_
  refine (adds_splitInTwo _ neutral).free_bind fun (plus, minus) _ => ?_
  refine (adds_addTrack primary .positive plus vertex).bind (m := 2) fun positive _ _ _ => ?_
  refine (adds_addTrack primary .negative minus vertex).bind (m := 1) fun negative _ _ _ => ?_
  exact (adds_addTrack primary bachelorSign bachelor secondary).bind_pure
    fun _ _ _ hbad => ⟨hmomentum, hbad⟩

/-- The end of an event: the cascade, if there is one. -/
theorem adds_lastCascade (primary : Position) (v0 : V0Id) :
    Adds s.Drawable 3
      (do
        let cascades ← Make.draw (Draw.chance (Draw.clampProbability s.cascadeProbability))
        if cascades then
          let found ← addCascade s primary v0
          pure [found]
        else pure [])
      fun _ k => s.cascadeProbability.isNaN = false ∧ (0 < k → s.DrawsTracks) := by
  refine (adds_draw (Draw.gives_chance_clampProbability _) fun h => h.cascade).free_bind
    fun cascades hcascade => ?_
  split
  · exact (adds_addCascade primary v0).bind_pure fun _ _ _ htracks => ⟨hcascade.1, fun _ => htracks⟩
  · exact (adds_pure (P := fun _ k => s.cascadeProbability.isNaN = false ∧
      (0 < k → s.DrawsTracks)) ⟨hcascade.1, fun h => absurd h (Nat.lt_irrefl 0)⟩).mono
      (Nat.zero_le 3) fun _ _ _ h => h

/-- The tracks of an event that do not come from decays are prompt. -/
theorem adds_addAll (primary : Position) (index : UInt64) :
    Adds s.Drawable (s.maxPromptTracks.toNat + 6) (addAll s primary index) fun _ k =>
      s.decayProbability.isNaN = false ∧ s.cascadeProbability.isNaN = false ∧
        (1 ≤ s.decayProbability → s.threeProngFraction.isNaN = false) ∧
        (0 < k → s.DrawsTracks) ∧ (6 < k → Draw.Centred s.resolution) := by
  unfold addAll
  refine (adds_draw (Draw.always_upTo _) fun _ => trivial).free_bind fun prompt hprompt => ?_
  have hcount : prompt.toNat ≤ s.maxPromptTracks.toNat := UInt64.le_iff_toNat_le.mp hprompt.2
  refine ((adds_repeated (adds_addPromptTrack primary) prompt.toNat).mono hcount
    fun _ _ _ h => h).bind (m := 6) fun _ i _ hprompts => ?_
  refine (adds_draw (Draw.gives_chance_clampProbability _) fun h => h.decay).free_bind
    fun decays hdecay => ?_
  have hlast := adds_lastCascade (s := s) primary ⟨firstId index⟩
  dsimp only
  split
  · refine (adds_addDecay primary).bind (m := 3) fun _ j hj hdecays => ?_
    refine hlast.mono (Nat.le_refl 3) fun _ k hk hcascades => ?_
    refine ⟨hdecay.1, hcascades.1, fun _ => hdecays.1, fun hadded => ?_, fun hmany => ?_⟩
    · rcases Nat.eq_zero_or_pos i with rfl | hi
      · rcases Nat.eq_zero_or_pos j with rfl | hj
        · exact hcascades.2 (by omega)
        · exact hdecays.2 hj
      · exact (hprompts hi).1
    · -- At most six tracks are not prompt, so one of them is.
      exact (hprompts (by omega)).2
  · rename_i hnone
    refine hlast.mono (by omega) fun _ k hk hcascades => ?_
    refine ⟨hdecay.1, hcascades.1, fun hcertain => absurd (hdecay.2 hcertain) hnone,
      fun hadded => ?_, fun hmany => ?_⟩
    · rcases Nat.eq_zero_or_pos i with rfl | hi
      · exact hcascades.2 (by omega)
      · exact (hprompts hi).1
    · exact (hprompts (by omega)).2

end

/-! ## Events -/

theorem gives_drawVertex (s : ToySettings) :
    Draw.Gives (Draw.Centred s.vertexSpreadZ ∧ s.rejectedEventProbability.isNaN = false)
      (drawVertex s) fun _ => True :=
  (Draw.gives_symmetric _).bind fun _ _ =>
    ((Draw.gives_chance_clampProbability _).bind (D := True) fun _ _ =>
      Draw.always_pure trivial).congr (iff_of_eq (and_true _))

/-- An event comes from settings that can be drawn from as far as it needs them. If there is
none, a draw has missed something, or the numbers of the tracks have run out. -/
theorem ends_generate (g : Generator) (index : UInt64) :
    Ends (g.generate index) (fun event => g.settings.DrawnFrom event.tracks.length)
      (Fails g.settings.Drawable
        ((firstId index).toNat + (g.settings.maxPromptTracks.toNat + 6))) := by
  unfold Generator.generate
  refine ((gives_drawVertex g.settings _).mono (fun r hr => hr) ?_).bind ?_
  · exact fun fault hmissing => Or.inl (hmissing.mono fun h => ⟨h.vertex, h.rejected⟩)
  · rintro ⟨⟨primary, accepted⟩, stream⟩ ⟨⟨hvertex, hrejected⟩, _⟩
    refine (adds_addAll primary index ⟨stream, firstId index, []⟩).bind ?_
    rintro ⟨v0s, workshop⟩ ⟨k, _, hmade, _, hdecay, hcascade, hthree, htracks, hresolution⟩
    have hlength : workshop.made.reverse.length = k := by
      rw [List.length_reverse]
      exact hmade.trans (Nat.zero_add k)
    show g.settings.DrawnFrom workshop.made.reverse.length
    rw [hlength]
    exact ⟨hvertex, hrejected, hdecay, hcascade, hthree, htracks, hresolution⟩

/-- Every event has room for at least 65536 tracks. -/
theorem toNat_firstId_le (index : UInt64) : (firstId index).toNat ≤ 2 ^ 64 - 2 ^ 16 := by
  unfold firstId
  rw [UInt64.toNat_shiftLeft]
  show index.toNat <<< 16 % 2 ^ 64 ≤ 2 ^ 64 - 2 ^ 16
  rw [Nat.shiftLeft_eq]
  omega

end Toy

/-- A checked configuration, as it was specified or written, sets up a generator of toy events.
The generator fails on no event if its settings can be drawn from and there is room for the
numbers of the tracks. An event that it gives shows that the settings can be drawn from as far
as the event needs them, and it only fails if a draw has missed something or if the numbers have
run out. -/
theorem toy_events_fail_only_on_undrawable_settings {c : Configuration}
    (hc : (∃ spec, Configuration.ofSpec spec = .ok c) ∨
      ∃ text, Configuration.ofText text = .ok c) :
    ∃ g, Toy.Generator.make c.toy = .ok g ∧ ∀ index,
      (c.toy.Drawable →
        (Toy.firstId index).toNat + (c.toy.maxPromptTracks.toNat + 6) < 2 ^ 64 →
          ∃ event, g.generate index = .ok event) ∧
      (∀ event, g.generate index = .ok event → c.toy.DrawnFrom event.tracks.length) ∧
      ∀ fault, g.generate index = .error fault →
        ((fault = .emptyRange ∨ fault = .invalidProbability) ∧ ¬ c.toy.Drawable) ∨
        (fault = .counterOverflow ∧
          2 ^ 64 ≤ (Toy.firstId index).toNat + (c.toy.maxPromptTracks.toNat + 6)) := by
  obtain ⟨spec, hspec⟩ : ∃ spec, Configuration.ofSpec spec = .ok c := by
    rcases hc with hspec | ⟨text, htext⟩
    · exact hspec
    · exact Configuration.ofSpec_of_ofText htext
  refine ⟨⟨c.toy⟩, Configuration.makeToy_eq hspec, fun index => ?_⟩
  have hends := Toy.ends_generate ⟨c.toy⟩ index
  cases hrun : Toy.Generator.generate ⟨c.toy⟩ index with
  | ok event =>
    rw [hrun] at hends
    refine ⟨fun _ _ => ⟨event, rfl⟩, ?_, ?_⟩
    · intro event' heq
      cases heq
      exact hends
    · intro fault heq
      cases heq
  | error fault =>
    rw [hrun] at hends
    refine ⟨fun hdrawable hroom => ?_, ?_, ?_⟩
    · rcases hends with ⟨_, hmissing⟩ | ⟨_, hfull⟩
      · exact absurd hdrawable hmissing
      · exact absurd hfull (Nat.not_le.mpr hroom)
    · intro event heq
      cases heq
    · intro fault' heq
      cases heq
      exact hends

namespace Sample

/-- A configuration whose primary vertices may lie anywhere. -/
def boundlessText : String := configurationText ++ "
  toy: \x7b vertex_spread_z: .inf \x7d"

set_option maxRecDepth 4000 in
theorem ofText_boundlessText : ∃ c, Configuration.ofText boundlessText = .ok c ∧
    ¬ Toy.Draw.Centred c.toy.vertexSpreadZ := by
  unfold boundlessText configurationText
  rw [← String.ofList_append]
  apply exists_ofText_ofList
  · decide +kernel
  · decide +kernel

theorem drawable_standard : ToySettings.standard.Drawable where
  vertex := by decide +kernel
  resolution := by decide +kernel
  tracks := ⟨⟨by decide +kernel, fun _ => by decide +kernel⟩, by decide +kernel⟩
  decay := by decide +kernel
  threeProng := by decide +kernel
  cascade := by decide +kernel
  rejected := by decide +kernel

end Sample

/-- With the settings that a configuration leaves out, every event is generated. With
vertices that may lie anywhere, which the checks let through, none is. -/
theorem standard_toy_events_are_given_and_boundless_ones_are_not :
    (∃ c g, Configuration.ofText Sample.configurationText = .ok c ∧
      Toy.Generator.make c.toy = .ok g ∧ ∀ index, ∃ event, g.generate index = .ok event) ∧
    ∃ c g, Configuration.ofText Sample.boundlessText = .ok c ∧
      Toy.Generator.make c.toy = .ok g ∧ ∀ index event, g.generate index ≠ .ok event := by
  constructor
  · obtain ⟨c, hc, htoy⟩ := Sample.ofText_configurationText
    obtain ⟨g, hg, hgenerate⟩ := toy_events_fail_only_on_undrawable_settings (.inr ⟨_, hc⟩)
    refine ⟨c, g, hc, hg, fun index => (hgenerate index).1 ?_ ?_⟩
    · rw [htoy]
      exact Sample.drawable_standard
    · have hfirst := Toy.toNat_firstId_le index
      have hprompt : c.toy.maxPromptTracks.toNat = 20 := by rw [htoy]; rfl
      omega
  · obtain ⟨c, hc, hboundless⟩ := Sample.ofText_boundlessText
    obtain ⟨g, hg, hgenerate⟩ := toy_events_fail_only_on_undrawable_settings (.inr ⟨_, hc⟩)
    refine ⟨c, g, hc, hg, fun index event hrun => ?_⟩
    exact hboundless ((hgenerate index).2.1 event hrun).vertex

end DecaySearch
