-- Which combinations an event leads to, and in which order. The order is written
-- down from the positions of the tracks alone, without any pruning, and the search
-- follows it. No two of its combinations have the same tracks.
import DecaySearch.Proofs.EventSearch

namespace DecaySearch

/-! ## The order -/

/-- Truth that the selection tags a track with a role. -/
def TrackSelector.grants (s : TrackSelector) (mode : SelectionMode) (role : Role) (t : Track) :
    Bool :=
  match s.inspect t mode with
  | .ok verdict => verdict.roles.contains role
  | .error _ => false

/-- Truth that a track may take a role: it is tagged with it, or the search is
exhaustive, which only debug mode can be. -/
def SearchSettings.eligible (settings : SearchSettings) (selector : TrackSelector) (role : Role)
    (t : Track) : Bool :=
  (settings.debug && settings.exhaustiveDebug) ||
    selector.grants (.ofDebug settings.debug) role t

namespace Enumeration

variable (eligible : Role → Track → Bool) (threeProng : Bool)

/-- The later tracks that complete a triplet, none of which has the identity of the
track they are later than. -/
def completing (t : Track) (later : List Track) : List Track :=
  later.filter fun q => eligible .threeProngLeg q && q.id ≠ t.id

/-- The combinations that a positive and a negative track begin. -/
def begun (p n : Track) (laterP laterN : List Track) : List (List Track) :=
  (if eligible .twoProngLeg p && eligible .twoProngLeg n then [[p, n]] else []) ++
    if threeProng && (eligible .threeProngLeg p && eligible .threeProngLeg n) then
      (completing eligible p laterP).map (fun q => [p, n, q]) ++
        (completing eligible n laterN).map fun q => [n, p, q]
    else []

/-- The combinations of some tracks, by positive and then by negative track. -/
def expected (tracks : List Track) : List (List Track) :=
  let positives := tracks.filter fun t => t.sign = .positive
  let negatives := tracks.filter fun t => t.sign = .negative
  positives.zipIdx.flatMap fun (p, i) =>
    negatives.zipIdx.flatMap fun (n, j) =>
      begun eligible threeProng p n (positives.drop (i + 1)) (negatives.drop (j + 1))

/-- The sets of tracks that should be looked at: two or three charged tracks of an
event, not all of one sign, each of which may take its role. -/
structure Sought (tracks c : List Track) : Prop where
  distinct : c.Nodup
  mem : ∀ t ∈ c, t ∈ tracks
  charged : ∀ t ∈ c, t.sign ≠ .neutral
  positive : ∃ t ∈ c, t.sign = .positive
  negative : ∃ t ∈ c, t.sign = .negative
  eligible : (c.length = 2 ∧ ∀ t ∈ c, eligible .twoProngLeg t = true) ∨
    (c.length = 3 ∧ threeProng = true ∧ ∀ t ∈ c, eligible .threeProngLeg t = true)

/-- The order of the tracks plays no part in what is sought. -/
theorem sought_of_perm {tracks c c' : List Track} (h : c.Perm c')
    (hs : Sought eligible threeProng tracks c) : Sought eligible threeProng tracks c' where
  distinct := h.nodup_iff.mp hs.distinct
  mem t ht := hs.mem t (h.mem_iff.mpr ht)
  charged t ht := hs.charged t (h.mem_iff.mpr ht)
  positive := by
    obtain ⟨t, ht, hsign⟩ := hs.positive
    exact ⟨t, h.mem_iff.mp ht, hsign⟩
  negative := by
    obtain ⟨t, ht, hsign⟩ := hs.negative
    exact ⟨t, h.mem_iff.mp ht, hsign⟩
  eligible := by
    rcases hs.eligible with ⟨hlen, hall⟩ | ⟨hlen, hthree, hall⟩
    · exact Or.inl ⟨h.length_eq ▸ hlen, fun t ht => hall t (h.mem_iff.mpr ht)⟩
    · exact Or.inr ⟨h.length_eq ▸ hlen, hthree, fun t ht => hall t (h.mem_iff.mpr ht)⟩

/-! ## The search follows the order -/

theorem expected_eq (tracks : List Track) :
    expected eligible threeProng tracks =
      (Combination.withLater (tracks.filter fun t => t.sign = .positive)).flatMap
        fun (p, laterP) =>
          (Combination.withLater (tracks.filter fun t => t.sign = .negative)).flatMap
            fun (n, laterN) => begun eligible threeProng p n laterP laterN := by
  unfold expected
  dsimp only
  rw [Combination.withLater_eq_zipIdx _ 0, Combination.withLater_eq_zipIdx _ 0, List.flatMap_map]
  congr 1
  funext ⟨p, i⟩
  rw [List.flatMap_map]
  rfl

end Enumeration

namespace Search

/-- A track with its roles. -/
def withRoles (s : Search) (t : Track) : TaggedTrack := ⟨t, s.selector.rolesOf t⟩

variable {s : Search} {eligible : Role → Track → Bool}
  (h : ∀ role t, s.scope.allows role (s.withRoles t) = eligible role t)

include h

theorem allowsTriplet_withRoles (t : Track) :
    s.scope.allowsTriplet (s.withRoles t) =
      (s.scope.threeProng && eligible .threeProngLeg t) := by
  unfold Combination.Scope.allowsTriplet
  rw [h]

theorem partners_withRoles (hthree : s.scope.threeProng = true) (t : Track)
    (later : List Track) :
    Combination.partners s.scope (s.withRoles t) (later.map s.withRoles) =
      (Enumeration.completing eligible t later).map s.withRoles := by
  unfold Combination.partners Enumeration.completing
  rw [List.filter_map]
  congr 1
  apply List.filter_congr
  intro q _
  simp only [Function.comp, allowsTriplet_withRoles h, hthree, Bool.true_and]
  rfl

theorem triplets_withRoles (p n : Track) (laterP laterN : List Track) :
    Combination.triplets s.scope (s.withRoles p) (s.withRoles n) (laterP.map s.withRoles)
        (laterN.map s.withRoles) =
      if s.scope.threeProng && (eligible .threeProngLeg p && eligible .threeProngLeg n) then
        (Enumeration.completing eligible p laterP).map (fun q => [p, n, q]) ++
          (Enumeration.completing eligible n laterN).map fun q => [n, p, q]
      else [] := by
  unfold Combination.triplets
  rw [allowsTriplet_withRoles h, allowsTriplet_withRoles h]
  cases hthree : s.scope.threeProng with
  | false => rfl
  | true =>
    rw [partners_withRoles h hthree, partners_withRoles h hthree, List.map_map, List.map_map]
    rfl

theorem begun_withRoles (p n : Track) (laterP laterN : List Track) :
    Combination.begun s.scope (s.withRoles p) (s.withRoles n) (laterP.map s.withRoles)
        (laterN.map s.withRoles) =
      Enumeration.begun eligible s.scope.threeProng p n laterP laterN := by
  unfold Combination.begun Enumeration.begun Combination.pairs Combination.Scope.allowsPair
  rw [triplets_withRoles h, h, h]
  rfl

/-- The combinations of an event are formed in the expected order. -/
theorem formed_eq_expected (event : Event) :
    s.formed event = Enumeration.expected eligible s.scope.threeProng event.tracks := by
  have hsigned : ∀ sign, s.signed event sign =
      (event.tracks.filter fun t => t.sign = sign).map s.withRoles := fun _ => rfl
  unfold formed
  rw [hsigned, hsigned, Combination.all_eq, Enumeration.expected_eq, Combination.withLater_map,
    Combination.withLater_map, List.flatMap_map]
  congr 1
  funext ⟨p, laterP⟩
  dsimp only
  rw [List.flatMap_map]
  congr 1
  funext ⟨n, laterN⟩
  exact begun_withRoles h p n laterP laterN

end Search

/-! ## Every set of tracks once -/

namespace Enumeration

variable {eligible : Role → Track → Bool} {threeProng : Bool}

theorem mem_begun_iff (p n : Track) (laterP laterN c : List Track) :
    c ∈ begun eligible threeProng p n laterP laterN ↔
      (eligible .twoProngLeg p = true ∧ eligible .twoProngLeg n = true ∧ c = [p, n]) ∨
      (threeProng = true ∧ eligible .threeProngLeg p = true ∧ eligible .threeProngLeg n = true ∧
        ((∃ q ∈ laterP, eligible .threeProngLeg q = true ∧ q.id ≠ p.id ∧ c = [p, n, q]) ∨
          ∃ q ∈ laterN, eligible .threeProngLeg q = true ∧ q.id ≠ n.id ∧ c = [n, p, q])) := by
  have hcompleted : ∀ (t u : Track) (later : List Track),
      c ∈ (completing eligible t later).map (fun q => [t, u, q]) ↔
        ∃ q ∈ later, eligible .threeProngLeg q = true ∧ q.id ≠ t.id ∧ c = [t, u, q] := by
    intro t u later
    unfold completing
    simp only [List.mem_map, List.mem_filter, Bool.and_eq_true, decide_eq_true_eq]
    constructor
    · rintro ⟨q, ⟨hq, helig, hid⟩, rfl⟩
      exact ⟨q, hq, helig, hid, rfl⟩
    · rintro ⟨q, hq, helig, hid, rfl⟩
      exact ⟨q, ⟨hq, helig, hid⟩, rfl⟩
  unfold begun
  rw [List.mem_append]
  apply or_congr
  · split
    · rename_i hpair
      rw [Bool.and_eq_true] at hpair
      simp [hpair.1, hpair.2]
    · rename_i hpair
      rw [Bool.and_eq_true] at hpair
      simp only [List.not_mem_nil, false_iff]
      rintro ⟨hp, hn, _⟩
      exact hpair ⟨hp, hn⟩
  · split
    · rename_i htriplet
      rw [Bool.and_eq_true, Bool.and_eq_true] at htriplet
      rw [List.mem_append, hcompleted, hcompleted]
      simp [htriplet.1, htriplet.2.1, htriplet.2.2]
    · rename_i htriplet
      rw [Bool.and_eq_true, Bool.and_eq_true] at htriplet
      simp only [List.not_mem_nil, false_iff]
      rintro ⟨hthree, hp, hn, _⟩
      exact htriplet ⟨hthree, hp, hn⟩

theorem mem_expected_iff (tracks c : List Track) :
    c ∈ expected eligible threeProng tracks ↔
      ∃ p laterP n laterN,
        (p, laterP) ∈ Combination.withLater (tracks.filter fun t => t.sign = .positive) ∧
        (n, laterN) ∈ Combination.withLater (tracks.filter fun t => t.sign = .negative) ∧
        c ∈ begun eligible threeProng p n laterP laterN := by
  rw [expected_eq, List.mem_flatMap]
  constructor
  · rintro ⟨⟨p, laterP⟩, hp, hc⟩
    obtain ⟨⟨n, laterN⟩, hn, hc⟩ := List.mem_flatMap.mp hc
    exact ⟨p, laterP, n, laterN, hp, hn, hc⟩
  · rintro ⟨p, laterP, n, laterN, hp, hn, hc⟩
    exact ⟨(p, laterP), hp, List.mem_flatMap.mpr ⟨(n, laterN), hn, hc⟩⟩

theorem mem_sign_iff (tracks : List Track) (sign : Sign) (t : Track) :
    (t ∈ tracks.filter fun t => t.sign = sign) ↔ t ∈ tracks ∧ t.sign = sign := by
  rw [List.mem_filter, decide_eq_true_iff]

/-- Only what is sought is looked at. -/
theorem sought_of_mem_expected {tracks c : List Track}
    (h : c ∈ expected eligible threeProng tracks) : Sought eligible threeProng tracks c := by
  obtain ⟨p, laterP, n, laterN, hpl, hnl, hc⟩ := (mem_expected_iff tracks c).mp h
  obtain ⟨hp, hlaterP⟩ := Combination.mem_of_mem_withLater hpl
  obtain ⟨hn, hlaterN⟩ := Combination.mem_of_mem_withLater hnl
  obtain ⟨hpt, hpsign⟩ := (mem_sign_iff tracks .positive p).mp hp
  obtain ⟨hnt, hnsign⟩ := (mem_sign_iff tracks .negative n).mp hn
  have hpn : p ≠ n := by
    rintro rfl
    rw [hpsign] at hnsign
    cases hnsign
  rcases (mem_begun_iff p n laterP laterN c).mp hc with
    ⟨hep, hen, rfl⟩ | ⟨hthree, hep, hen, ⟨q, hq, heq, hid, rfl⟩ | ⟨q, hq, heq, hid, rfl⟩⟩
  · refine ⟨by simp [hpn], ?_, ?_, ⟨p, by simp, hpsign⟩, ⟨n, by simp, hnsign⟩, ?_⟩
    · simp [hpt, hnt]
    · simp [hpsign, hnsign]
    · exact Or.inl ⟨rfl, by simp [hep, hen]⟩
  · obtain ⟨hqt, hqsign⟩ := (mem_sign_iff tracks .positive q).mp (hlaterP q hq)
    have hpq : p ≠ q := fun heq => hid (heq ▸ rfl)
    have hnq : n ≠ q := by
      rintro rfl
      rw [hqsign] at hnsign
      cases hnsign
    refine ⟨by simp [hpn, hpq, hnq], ?_, ?_, ⟨p, by simp, hpsign⟩, ⟨n, by simp, hnsign⟩, ?_⟩
    · simp [hpt, hnt, hqt]
    · simp [hpsign, hnsign, hqsign]
    · exact Or.inr ⟨rfl, hthree, by simp [hep, hen, heq]⟩
  · obtain ⟨hqt, hqsign⟩ := (mem_sign_iff tracks .negative q).mp (hlaterN q hq)
    have hnq : n ≠ q := fun heq => hid (heq ▸ rfl)
    have hpq : p ≠ q := by
      rintro rfl
      rw [hqsign] at hpsign
      cases hpsign
    refine ⟨by simp [hpn.symm, hpq, hnq], ?_, ?_, ⟨p, by simp, hpsign⟩, ⟨n, by simp, hnsign⟩, ?_⟩
    · simp [hpt, hnt, hqt]
    · simp [hpsign, hnsign, hqsign]
    · exact Or.inr ⟨rfl, hthree, by simp [hep, hen, heq]⟩

/-- A track that only one of two combinations has tells them apart. -/
theorem not_perm_of_mem {x y : List Track} {t : Track} (hx : t ∈ x) (hy : t ∉ y) : ¬ x.Perm y :=
  fun hperm => hy (hperm.mem_iff.mp hx)

theorem ne_of_sign {t u : Track} (ht : t.sign = .positive) (hu : u.sign = .negative) : t ≠ u := by
  rintro rfl
  rw [ht] at hu
  cases hu

/-- A combination has the two tracks that begin it, and otherwise later ones. -/
theorem tracks_of_mem_begun {p n : Track} {laterP laterN c : List Track}
    (h : c ∈ begun eligible threeProng p n laterP laterN) :
    p ∈ c ∧ n ∈ c ∧ ∀ t ∈ c, t = p ∨ t = n ∨ t ∈ laterP ∨ t ∈ laterN := by
  rcases (mem_begun_iff p n laterP laterN c).mp h with
    ⟨_, _, rfl⟩ | ⟨_, _, _, ⟨q, hq, _, _, rfl⟩ | ⟨q, hq, _, _, rfl⟩⟩
  · simp
  · simp [hq]
  · simp [hq]

/-- Two tracks do not begin the same combination twice. -/
theorem pairwise_begun {p n : Track} {laterP laterN : List Track}
    (hP : ∀ t ∈ laterP, t.sign = .positive) (hN : ∀ t ∈ laterN, t.sign = .negative)
    (hn : n.sign = .negative) (hdistinctP : laterP.Nodup) (hdistinctN : laterN.Nodup) :
    (begun eligible threeProng p n laterP laterN).Pairwise fun x y => ¬ x.Perm y := by
  have hsame : ∀ (t u : Track) (later : List Track), later.Nodup →
      ((completing eligible t later).map fun q => [t, u, q]).Pairwise
        fun x y => ¬ x.Perm y := by
    intro t u later hlater
    rw [List.pairwise_map]
    refine List.Pairwise.imp ?_ (hlater.filter _)
    intro q q' hne hperm
    exact hne (List.singleton_perm_singleton.mp (hperm.cons_inv.cons_inv))
  unfold begun
  rw [List.pairwise_append]
  refine ⟨?_, ?_, ?_⟩
  · split
    · exact List.pairwise_singleton _ _
    · exact List.Pairwise.nil
  · split
    · rw [List.pairwise_append]
      refine ⟨hsame p n laterP hdistinctP, hsame n p laterN hdistinctN, ?_⟩
      -- The track that completes the first one is positive and not the other's only one.
      intro x hx y hy
      obtain ⟨q, hq, rfl⟩ := List.mem_map.mp hx
      obtain ⟨q', hq', rfl⟩ := List.mem_map.mp hy
      unfold completing at hq hq'
      rw [List.mem_filter, Bool.and_eq_true, decide_eq_true_iff] at hq hq'
      have hsign := hP q hq.1
      have hqp : q ≠ p := fun heq => hq.2.2 (heq ▸ rfl)
      have hqn : q ≠ n := ne_of_sign hsign hn
      have hqq : q ≠ q' := ne_of_sign hsign (hN q' hq'.1)
      refine not_perm_of_mem (show q ∈ [p, n, q] by simp) ?_
      simp [hqp, hqn, hqq]
    · exact List.Pairwise.nil
  · intro x hx y hy hperm
    have hpair : x.length = 2 := by
      split at hx
      · rw [List.mem_singleton.mp hx]
        rfl
      · cases hx
    have htriplet : y.length = 3 := by
      split at hy
      · rcases List.mem_append.mp hy with hy | hy
        · obtain ⟨q, _, rfl⟩ := List.mem_map.mp hy
          rfl
        · obtain ⟨q, _, rfl⟩ := List.mem_map.mp hy
          rfl
      · cases hy
    have hlen := hperm.length_eq
    omega

/-- The later tracks of one sign have that sign, and none occurs twice. -/
theorem later_of_sign {tracks : List Track} (h : tracks.Nodup) {sign : Sign}
    {x : Track × List Track}
    (hx : x ∈ Combination.withLater (tracks.filter fun t => t.sign = sign)) :
    x.1.sign = sign ∧ x.2.Nodup ∧ ∀ t ∈ x.2, t.sign = sign := by
  obtain ⟨hmem, hlater⟩ := Combination.mem_of_mem_withLater hx
  have hnodup := (h.filter _).sublist (Combination.sublist_of_mem_withLater hx)
  exact ⟨((mem_sign_iff _ _ _).mp hmem).2, (List.nodup_cons.mp hnodup).2,
    fun t ht => ((mem_sign_iff _ _ _).mp (hlater t ht)).2⟩

/-- No two combinations of an event have the same tracks, if no track occurs twice. -/
theorem pairwise_expected {tracks : List Track} (h : tracks.Nodup) :
    (expected eligible threeProng tracks).Pairwise fun x y => ¬ x.Perm y := by
  rw [expected_eq, List.pairwise_flatMap]
  constructor
  · rintro ⟨p, laterP⟩ hp
    obtain ⟨hpsign, hdistinctP, hP⟩ := later_of_sign h hp
    rw [List.pairwise_flatMap]
    constructor
    · rintro ⟨n, laterN⟩ hn
      obtain ⟨hnsign, hdistinctN, hN⟩ := later_of_sign h hn
      exact pairwise_begun hP hN hnsign hdistinctP hdistinctN
    · -- The first negative track is in the first combination only.
      refine List.Pairwise.imp_of_mem ?_ (Combination.pairwise_withLater (h.filter _))
      rintro ⟨n, laterN⟩ ⟨n', laterN'⟩ hn _ ⟨hne, hnotin⟩ x hx y hy
      have hnsign := (later_of_sign h hn).1
      refine not_perm_of_mem (tracks_of_mem_begun hx).2.1 fun hmem => ?_
      rcases (tracks_of_mem_begun hy).2.2 n hmem with rfl | rfl | hin | hin
      · exact ne_of_sign hpsign hnsign rfl
      · exact hne rfl
      · exact ne_of_sign (hP n hin) hnsign rfl
      · exact hnotin hin
  · -- The first positive track is in the first combination only.
    refine List.Pairwise.imp_of_mem ?_ (Combination.pairwise_withLater (h.filter _))
    rintro ⟨p, laterP⟩ ⟨p', laterP'⟩ hp _ ⟨hne, hnotin⟩ x hx y hy
    have hpsign := (later_of_sign h hp).1
    obtain ⟨⟨n, laterN⟩, hn, hx⟩ := List.mem_flatMap.mp hx
    obtain ⟨⟨n', laterN'⟩, hn', hy⟩ := List.mem_flatMap.mp hy
    obtain ⟨hnsign', _, hN'⟩ := later_of_sign h hn'
    refine not_perm_of_mem (tracks_of_mem_begun hx).1 fun hmem => ?_
    rcases (tracks_of_mem_begun hy).2.2 p hmem with rfl | rfl | hin | hin
    · exact hne rfl
    · exact ne_of_sign hpsign hnsign' rfl
    · exact hnotin hin
    · exact ne_of_sign hpsign (hN' p hin) rfl

theorem pair_mem_expected {tracks : List Track} {p n : Track} (hp : p ∈ tracks) (hn : n ∈ tracks)
    (hpsign : p.sign = .positive) (hnsign : n.sign = .negative)
    (hep : eligible .twoProngLeg p = true) (hen : eligible .twoProngLeg n = true) :
    [p, n] ∈ expected eligible threeProng tracks := by
  obtain ⟨laterP, hpl⟩ := Combination.exists_mem_withLater
    ((mem_sign_iff tracks .positive p).mpr ⟨hp, hpsign⟩)
  obtain ⟨laterN, hnl⟩ := Combination.exists_mem_withLater
    ((mem_sign_iff tracks .negative n).mpr ⟨hn, hnsign⟩)
  rw [mem_expected_iff]
  exact ⟨p, laterP, n, laterN, hpl, hnl,
    (mem_begun_iff p n laterP laterN _).mpr (Or.inl ⟨hep, hen, rfl⟩)⟩

section Triplets

variable {tracks : List Track} (hids : ∀ a ∈ tracks, ∀ b ∈ tracks, a.id = b.id → a = b)
  (hthree : threeProng = true) {a b c : Track} (ha : a ∈ tracks) (hb : b ∈ tracks)
  (hc : c ∈ tracks) (hne : a ≠ b) (hea : eligible .threeProngLeg a = true)
  (heb : eligible .threeProngLeg b = true) (hec : eligible .threeProngLeg c = true)

include hids hthree ha hb hc hne hea heb hec

/-- Two positive tracks and a negative one form a triplet, which the later one of the
two completes. -/
theorem positive_triplet (hsa : a.sign = .positive) (hsb : b.sign = .positive)
    (hsc : c.sign = .negative) :
    ∃ x ∈ expected eligible threeProng tracks, x.Perm [a, b, c] := by
  obtain ⟨laterN, hnl⟩ := Combination.exists_mem_withLater
    ((mem_sign_iff tracks .negative c).mpr ⟨hc, hsc⟩)
  rcases Combination.later_or_later ((mem_sign_iff tracks .positive a).mpr ⟨ha, hsa⟩)
      ((mem_sign_iff tracks .positive b).mpr ⟨hb, hsb⟩) hne with
    ⟨later, hl, hmem⟩ | ⟨later, hl, hmem⟩
  · refine ⟨[a, c, b], (mem_expected_iff tracks _).mpr ⟨a, later, c, laterN, hl, hnl, ?_⟩, ?_⟩
    · rw [mem_begun_iff]
      exact Or.inr ⟨hthree, hea, hec,
        Or.inl ⟨b, hmem, heb, fun hid => hne (hids b hb a ha hid).symm, rfl⟩⟩
    · exact (List.Perm.swap b c []).cons a
  · refine ⟨[b, c, a], (mem_expected_iff tracks _).mpr ⟨b, later, c, laterN, hl, hnl, ?_⟩, ?_⟩
    · rw [mem_begun_iff]
      exact Or.inr ⟨hthree, heb, hec,
        Or.inl ⟨a, hmem, hea, fun hid => hne (hids a ha b hb hid), rfl⟩⟩
    · exact (List.perm_append_comm : ([b, c] ++ [a]).Perm ([a] ++ [b, c]))

/-- Two negative tracks and a positive one form a triplet, which the later one of the
two completes. -/
theorem negative_triplet (hsa : a.sign = .negative) (hsb : b.sign = .negative)
    (hsc : c.sign = .positive) :
    ∃ x ∈ expected eligible threeProng tracks, x.Perm [a, b, c] := by
  obtain ⟨laterP, hpl⟩ := Combination.exists_mem_withLater
    ((mem_sign_iff tracks .positive c).mpr ⟨hc, hsc⟩)
  rcases Combination.later_or_later ((mem_sign_iff tracks .negative a).mpr ⟨ha, hsa⟩)
      ((mem_sign_iff tracks .negative b).mpr ⟨hb, hsb⟩) hne with
    ⟨later, hl, hmem⟩ | ⟨later, hl, hmem⟩
  · refine ⟨[a, c, b], (mem_expected_iff tracks _).mpr ⟨c, laterP, a, later, hpl, hl, ?_⟩, ?_⟩
    · rw [mem_begun_iff]
      exact Or.inr ⟨hthree, hec, hea,
        Or.inr ⟨b, hmem, heb, fun hid => hne (hids b hb a ha hid).symm, rfl⟩⟩
    · exact (List.Perm.swap b c []).cons a
  · refine ⟨[b, c, a], (mem_expected_iff tracks _).mpr ⟨c, laterP, b, later, hpl, hl, ?_⟩, ?_⟩
    · rw [mem_begun_iff]
      exact Or.inr ⟨hthree, hec, heb,
        Or.inr ⟨a, hmem, hea, fun hid => hne (hids a ha b hb hid), rfl⟩⟩
    · exact (List.perm_append_comm : ([b, c] ++ [a]).Perm ([a] ++ [b, c]))

/-- Of three different tracks of both signs, two have the same one, and with the third
they form a triplet. -/
theorem triplet_mem_expected (hac : a ≠ c) (hbc : b ≠ c)
    (hsigns : ∀ t ∈ [a, b, c], t.sign = .positive ∨ t.sign = .negative)
    (hpositive : ∃ t ∈ [a, b, c], t.sign = .positive)
    (hnegative : ∃ t ∈ [a, b, c], t.sign = .negative) :
    ∃ x ∈ expected eligible threeProng tracks, x.Perm [a, b, c] := by
  have hacb : [a, c, b].Perm [a, b, c] := (List.Perm.swap b c []).cons a
  have hbca : [b, c, a].Perm [a, b, c] :=
    (List.perm_append_comm : ([b, c] ++ [a]).Perm ([a] ++ [b, c]))
  rcases hsigns a (by simp) with hsa | hsa <;> rcases hsigns b (by simp) with hsb | hsb <;>
    rcases hsigns c (by simp) with hsc | hsc
  case inl.inl.inl =>
    obtain ⟨t, ht, hsign⟩ := hnegative
    simp only [List.mem_cons, List.not_mem_nil, or_false] at ht
    rcases ht with rfl | rfl | rfl <;> simp_all
  case inl.inl.inr => exact positive_triplet hids hthree ha hb hc hne hea heb hec hsa hsb hsc
  case inl.inr.inl =>
    obtain ⟨x, hx, hperm⟩ :=
      positive_triplet hids hthree ha hc hb hac hea hec heb hsa hsc hsb
    exact ⟨x, hx, hperm.trans hacb⟩
  case inl.inr.inr =>
    obtain ⟨x, hx, hperm⟩ :=
      negative_triplet hids hthree hb hc ha hbc heb hec hea hsb hsc hsa
    exact ⟨x, hx, hperm.trans hbca⟩
  case inr.inl.inl =>
    obtain ⟨x, hx, hperm⟩ :=
      positive_triplet hids hthree hb hc ha hbc heb hec hea hsb hsc hsa
    exact ⟨x, hx, hperm.trans hbca⟩
  case inr.inl.inr =>
    obtain ⟨x, hx, hperm⟩ :=
      negative_triplet hids hthree ha hc hb hac hea hec heb hsa hsc hsb
    exact ⟨x, hx, hperm.trans hacb⟩
  case inr.inr.inl => exact negative_triplet hids hthree ha hb hc hne hea heb hec hsa hsb hsc
  case inr.inr.inr =>
    obtain ⟨t, ht, hsign⟩ := hpositive
    simp only [List.mem_cons, List.not_mem_nil, or_false] at ht
    rcases ht with rfl | rfl | rfl <;> simp_all

end Triplets

/-- What is sought is looked at, if no two tracks have the same identity. -/
theorem exists_perm_of_sought {tracks c : List Track}
    (hids : ∀ a ∈ tracks, ∀ b ∈ tracks, a.id = b.id → a = b)
    (h : Sought eligible threeProng tracks c) :
    ∃ x ∈ expected eligible threeProng tracks, x.Perm c := by
  have hsigns : ∀ t ∈ c, t.sign = .positive ∨ t.sign = .negative := by
    intro t ht
    have hcharged := h.charged t ht
    cases hsign : t.sign
    · exact Or.inl rfl
    · exact Or.inr rfl
    · exact absurd hsign hcharged
  have hmem := h.mem
  have hdistinct := h.distinct
  have hpositive := h.positive
  have hnegative := h.negative
  rcases h.eligible with ⟨hlen, hall⟩ | ⟨hlen, hthree, hall⟩
  · match c, hlen with
    | [a, b], _ =>
      simp only [List.mem_cons, List.not_mem_nil, or_false, forall_eq_or_imp, forall_eq]
        at hmem hall hsigns
      rcases hsigns.1 with hsa | hsa
      · rcases hsigns.2 with hsb | hsb
        · simp [hsa, hsb] at hnegative
        · exact ⟨_, pair_mem_expected hmem.1 hmem.2 hsa hsb hall.1 hall.2, List.Perm.refl _⟩
      · rcases hsigns.2 with hsb | hsb
        · exact ⟨_, pair_mem_expected hmem.2 hmem.1 hsb hsa hall.2 hall.1, List.Perm.swap a b []⟩
        · simp [hsa, hsb] at hpositive
  · match c, hlen with
    | [a, b, c], _ =>
      have ha : a ∈ [a, b, c] := by simp
      have hb : b ∈ [a, b, c] := by simp
      have hc : c ∈ [a, b, c] := by simp
      simp only [List.nodup_cons, List.mem_cons, List.not_mem_nil, or_false, not_or] at hdistinct
      exact triplet_mem_expected hids hthree (hmem a ha) (hmem b hb) (hmem c hc)
        hdistinct.1.1 (hall a ha) (hall b hb) (hall c hc) hdistinct.1.2 hdistinct.2.1 hsigns
        hpositive hnegative

/-- Among lists with different elements, one that is there is there once. -/
theorem countP_isPerm_eq_one {xs : List (List Track)} {c : List Track}
    (hdistinct : xs.Pairwise fun x y => ¬ x.Perm y) (h : ∃ x ∈ xs, x.Perm c) :
    xs.countP (·.isPerm c) = 1 := by
  induction xs with
  | nil =>
    obtain ⟨x, hx, _⟩ := h
    cases hx
  | cons x rest ih =>
    obtain ⟨hfirst, hrest⟩ := List.pairwise_cons.mp hdistinct
    rw [List.countP_cons]
    by_cases hxc : x.Perm c
    · have hnone : rest.countP (·.isPerm c) = 0 := by
        rw [List.countP_eq_zero]
        intro y hy hyc
        exact hfirst y hy (hxc.trans (List.isPerm_iff.mp hyc).symm)
      rw [hnone, if_pos (List.isPerm_iff.mpr hxc)]
    · have hin : ∃ y ∈ rest, y.Perm c := by
        obtain ⟨y, hy, hyc⟩ := h
        rcases List.mem_cons.mp hy with rfl | hy
        · exact absurd hyc hxc
        · exact ⟨y, hy, hyc⟩
      rw [ih hrest hin, if_neg fun hperm => hxc (List.isPerm_iff.mp hperm)]

/-- With distinct identities, every sought set of tracks is looked at once. -/
theorem countP_expected_of_sought {tracks c : List Track} (hids : (tracks.map (·.id)).Nodup)
    (h : Sought eligible threeProng tracks c) :
    (expected eligible threeProng tracks).countP (·.isPerm c) = 1 := by
  have hinj : ∀ a ∈ tracks, ∀ b ∈ tracks, a.id = b.id → a = b :=
    fun a ha b hb hab => List.inj_on_of_nodup_map hids ha hb hab
  exact countP_isPerm_eq_one (pairwise_expected (List.Nodup.of_map _ hids))
    (exists_perm_of_sought hinj h)

/-- No other set of tracks is looked at. -/
theorem countP_expected_of_not_sought {tracks c : List Track}
    (h : ¬ Sought eligible threeProng tracks c) :
    (expected eligible threeProng tracks).countP (·.isPerm c) = 0 := by
  rw [List.countP_eq_zero]
  intro x hx hxc
  exact h (sought_of_perm eligible threeProng (List.isPerm_iff.mp hxc) (sought_of_mem_expected hx))

end Enumeration

/-! ## The run -/

namespace Search

/-- The search forms its combinations by the eligibility that its settings ask for. -/
theorem allows_of_make {selector : TrackSelector} (hselector : selector.WellFormed)
    {hypotheses : HypothesisSet} {fitter : Fitter} {settings : SearchSettings}
    {cascades : Option CascadeSettings} {s : Search}
    (h : Search.make selector hypotheses fitter settings cascades = .ok s) (role : Role)
    (t : Track) : s.scope.allows role (s.withRoles t) = settings.eligible selector role t := by
  have hgrants : selector.grants (.ofDebug settings.debug) role t =
      (selector.rolesOf t).contains role := by
    unfold TrackSelector.grants
    rw [TrackSelector.inspect_eq hselector]
    dsimp only
    rw [TrackSelector.roles_verdictOf]
  unfold SearchSettings.eligible Combination.Scope.allows withRoles
  rw [hgrants, make_eq_ok h]

/-- In debug mode, every combination is fitted. -/
theorem tracks_candidateCalls_of_debug {s : Search} (h : s.mode = .debug) (event : Event) :
    (s.report event).candidateCalls.map (·.tracks) = s.formed event := by
  have hcalls : ∀ prongs, (s.outcome (Combination.arityOf prongs) event.primaryVertex
      prongs).calls = [s.fitter.call prongs] := by
    intro prongs
    rw [calls_outcome, if_pos (triesFit_of_debug h _ _)]
  rw [candidateCalls_report]
  unfold evaluations
  rw [List.flatMap_map]
  simp only [hcalls]
  rw [List.map_flatMap]
  simp [Fitter.call]

end Search

/-- The search forms the combinations of an accepted event in the expected order, looks
at each of them and at nothing else. Its fits and its rows are those of their evaluations,
and in debug mode each of them is fitted. No neutral track is ever part of one. If no two
tracks have the same identity, every pair and every triplet that is sought is looked at
once, and no other set of tracks ever is. -/
theorem the_enumeration_is_exact_and_ordered {selector : TrackSelector}
    (hselector : selector.WellFormed) {hypotheses : HypothesisSet}
    (hhypotheses : hypotheses.WellFormed) {fitter : Fitter} {settings : SearchSettings}
    {cascades : Option CascadeSettings} {s : Search}
    (hmake : Search.make selector hypotheses fitter settings cascades = .ok s) {event : Event}
    (haccepted : event.accepted = true) :
    let expected :=
      Enumeration.expected (settings.eligible selector) settings.doThreeProng event.tracks
    let Sought := Enumeration.Sought (settings.eligible selector) settings.doThreeProng
    (∃ tagged r evaluations, s.tag event = .ok tagged ∧ s.combinations tagged = expected ∧
      s.process event = .ok r ∧
      expected.mapM (s.evaluate event.primaryVertex) = .ok evaluations ∧
      r.candidateCalls = evaluations.flatMap (·.calls) ∧
      (∀ arity, r.output.rows arity = evaluations.flatMap (·.rows s.mode arity)) ∧
      (settings.debug = true → r.candidateCalls.map (·.tracks) = expected)) ∧
    (∀ prongs ∈ expected, ∀ t ∈ prongs, t.sign ≠ .neutral) ∧
    ((event.tracks.map (·.id)).Nodup → ∀ c,
      (Sought event.tracks c → expected.countP (·.isPerm c) = 1) ∧
      (¬ Sought event.tracks c → expected.countP (·.isPerm c) = 0)) := by
  intro expected Sought
  have hs := Search.make_wellFormed hselector hhypotheses hmake
  have hformed : s.formed event = expected := by
    rw [Search.formed_eq_expected (Search.allows_of_make hselector hmake) event]
    rw [Search.make_eq_ok hmake]
  refine ⟨⟨s.tagged event, s.report event, s.evaluations event, Search.tag_eq hs event, ?_,
    Search.process_eq hs haccepted, ?_, Search.candidateCalls_report s event,
    Search.rows_report s event, ?_⟩, ?_, ?_⟩
  · rw [Search.combinations_tagged, hformed]
  · rw [← hformed]
    apply mapM_eq_ok_map
    intro prongs hprongs
    exact Search.evaluate_eq hs (Search.follows_of_mem_formed hprongs) event.primaryVertex
  · intro hdebug
    have hmode : s.mode = .debug := by
      rw [Search.make_eq_ok hmake]
      show SelectionMode.ofDebug settings.debug = .debug
      rw [hdebug]
      rfl
    rw [Search.tracks_candidateCalls_of_debug hmode, hformed]
  · intro prongs hprongs t ht
    exact (Enumeration.sought_of_mem_expected hprongs).charged t ht
  · intro hids c
    exact ⟨Enumeration.countP_expected_of_sought hids, Enumeration.countP_expected_of_not_sought⟩

/-- Two tracks of opposite sign are looked at once. -/
theorem a_pair_is_looked_at_once :
    ∃ tagged, (Sample.search true true).tag Sample.event = .ok tagged ∧
      (Sample.search true true).combinations tagged = [Sample.pair] ∧
      [Sample.pair].countP (·.isPerm Sample.pair.reverse) = 1 := by
  obtain ⟨⟨tagged, _, _, htag, hcombinations, _⟩, _, honce⟩ :=
    the_enumeration_is_exact_and_ordered Sample.selector_wellFormed Sample.hypotheses_wellFormed
      (Sample.make_search true true) (show Sample.event.accepted = true from rfl)
  have hexpected : Enumeration.expected
      (SearchSettings.eligible ⟨0.125, true, true, true⟩ Sample.selector) true Sample.pair =
      [Sample.pair] := rfl
  have hsought : Enumeration.Sought
      (SearchSettings.eligible ⟨0.125, true, true, true⟩ Sample.selector) true Sample.pair
      Sample.pair.reverse := by
    refine ⟨by decide, by decide, by decide, by decide, by decide, ?_⟩
    exact Or.inl ⟨rfl, fun _ _ => rfl⟩
  refine ⟨tagged, htag, hcombinations.trans hexpected, ?_⟩
  have hids : (Sample.event.tracks.map (·.id)).Nodup := by decide
  have hcount := (honce hids Sample.pair.reverse).1 hsought
  exact hexpected ▸ hcount

end DecaySearch
