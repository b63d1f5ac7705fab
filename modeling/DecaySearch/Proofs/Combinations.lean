-- Which combinations are enumerated: their tracks come from the two lists, follow
-- the charges of a decay, and only become more when the scope becomes wider.
import DecaySearch.Combination
import DecaySearch.Proofs.Evaluation

namespace DecaySearch.Combination

variable {α β : Type}

/-! ## Elements with later ones -/

/-- Each element stands with what is left of the list behind its position. -/
theorem withLater_eq_zipIdx (l : List α) (start : Nat) :
    withLater l = (l.zipIdx start).map fun (a, i) => (a, l.drop (i + 1 - start)) := by
  induction l generalizing start with
  | nil => rfl
  | cons a rest ih =>
    rw [withLater, List.zipIdx_cons, List.map_cons, ih (start + 1)]
    congr 1
    · simp
    · apply List.map_congr_left
      rintro ⟨b, i⟩ hb
      have hi := (List.mem_zipIdx hb).1
      simp only [show i + 1 - start = (i + 1 - (start + 1)) + 1 by omega, List.drop_succ_cons]

theorem withLater_map (f : α → β) (l : List α) :
    withLater (l.map f) = (withLater l).map fun (a, later) => (f a, later.map f) := by
  induction l with
  | nil => rfl
  | cons a rest ih => simp only [List.map_cons, withLater, ih]

/-- An element and those behind it stand in the list in this order. -/
theorem sublist_of_mem_withLater {l later : List α} {a : α} (h : (a, later) ∈ withLater l) :
    (a :: later).Sublist l := by
  induction l with
  | nil => cases h
  | cons x rest ih =>
    rw [withLater, List.mem_cons] at h
    rcases h with heq | hrest
    · cases heq
      exact List.Sublist.refl _
    · exact (ih hrest).cons x

theorem mem_of_mem_withLater {l later : List α} {a : α} (h : (a, later) ∈ withLater l) :
    a ∈ l ∧ ∀ b ∈ later, b ∈ l := by
  have hsub := (sublist_of_mem_withLater h).subset
  exact ⟨hsub List.mem_cons_self, fun b hb => hsub (List.mem_cons_of_mem a hb)⟩

theorem exists_mem_withLater {l : List α} {a : α} (h : a ∈ l) :
    ∃ later, (a, later) ∈ withLater l := by
  induction l with
  | nil => cases h
  | cons x rest ih =>
    rw [List.mem_cons] at h
    rcases h with rfl | hrest
    · exact ⟨rest, List.mem_cons_self⟩
    · obtain ⟨later, hlater⟩ := ih hrest
      exact ⟨later, List.mem_cons_of_mem _ hlater⟩

/-- Of two different elements, one stands behind the other. -/
theorem later_or_later {l : List α} {a b : α} (ha : a ∈ l) (hb : b ∈ l) (hne : a ≠ b) :
    (∃ later, (a, later) ∈ withLater l ∧ b ∈ later) ∨
      ∃ later, (b, later) ∈ withLater l ∧ a ∈ later := by
  induction l with
  | nil => cases ha
  | cons x rest ih =>
    rw [List.mem_cons] at ha hb
    rcases ha with rfl | ha
    · rcases hb with rfl | hb
      · exact absurd rfl hne
      · exact Or.inl ⟨rest, List.mem_cons_self, hb⟩
    · rcases hb with rfl | hb
      · exact Or.inr ⟨rest, List.mem_cons_self, ha⟩
      · rcases ih ha hb with ⟨later, hl, hmem⟩ | ⟨later, hl, hmem⟩
        · exact Or.inl ⟨later, List.mem_cons_of_mem _ hl, hmem⟩
        · exact Or.inr ⟨later, List.mem_cons_of_mem _ hl, hmem⟩

/-- Without repeated elements, none occurs at or behind a later position. -/
theorem pairwise_withLater {l : List α} (hl : l.Nodup) :
    (withLater l).Pairwise fun x y => x.1 ≠ y.1 ∧ x.1 ∉ y.2 := by
  induction l with
  | nil => exact List.Pairwise.nil
  | cons a rest ih =>
    obtain ⟨hfresh, hrest⟩ := List.nodup_cons.mp hl
    rw [withLater, List.pairwise_cons]
    refine ⟨?_, ih hrest⟩
    rintro ⟨b, later⟩ hb
    obtain ⟨hmem, hlater⟩ := mem_of_mem_withLater hb
    constructor
    · rintro rfl
      exact hfresh hmem
    · intro ha
      exact hfresh (hlater a ha)

/-! ## Pruning -/

/-- The combinations that a positive and a negative track begin. -/
def begun (s : Scope) (p n : TaggedTrack) (laterP laterN : List TaggedTrack) :
    List (List Track) :=
  pairs s p n ++ triplets s p n laterP laterN

/-- A track that may take no part begins nothing. -/
theorem begun_eq_nil {s : Scope} {p n : TaggedTrack}
    (h : (s.allowsAny p && s.allowsAny n) = false) (laterP laterN : List TaggedTrack) :
    begun s p n laterP laterN = [] := by
  have hpair : (s.allowsPair p && s.allowsPair n) = false := by
    revert h
    unfold Scope.allowsAny
    cases s.allowsPair p <;> cases s.allowsPair n <;> simp
  have htriplet : (s.allowsTriplet p && s.allowsTriplet n) = false := by
    revert h
    unfold Scope.allowsAny
    cases s.allowsTriplet p <;> cases s.allowsTriplet n <;> simp
  unfold begun pairs triplets
  rw [hpair, htriplet]
  rfl

/-- Skipping tracks early hides no combination. -/
theorem all_eq (s : Scope) (positives negatives : List TaggedTrack) :
    all s positives negatives =
      (withLater positives).flatMap fun (p, laterP) =>
        (withLater negatives).flatMap fun (n, laterN) => begun s p n laterP laterN := by
  unfold all
  congr 1
  funext ⟨p, laterP⟩
  dsimp only
  split
  · rename_i hp
    congr 1
    funext ⟨n, laterN⟩
    dsimp only
    split
    · rfl
    · rename_i hn
      exact (begun_eq_nil (by simp [hn]) laterP laterN).symm
  · rename_i hp
    have hnil : ∀ x ∈ withLater negatives, begun s p x.1 laterP x.2 = [] :=
      fun x _ => begun_eq_nil (by simp [hp]) laterP x.2
    exact (List.flatMap_eq_nil_iff.mpr hnil).symm

/-! ## Members -/

theorem mem_partners_iff (s : Scope) (t u : TaggedTrack) (later : List TaggedTrack) :
    u ∈ partners s t later ↔
      u ∈ later ∧ s.allowsTriplet u = true ∧ u.track.id ≠ t.track.id := by
  unfold partners
  rw [List.mem_filter, Bool.and_eq_true, decide_eq_true_iff]

theorem mem_pairs_iff (s : Scope) (p n : TaggedTrack) (prongs : List Track) :
    prongs ∈ pairs s p n ↔
      s.allowsPair p = true ∧ s.allowsPair n = true ∧ prongs = [p.track, n.track] := by
  unfold pairs
  split
  · rename_i h
    rw [Bool.and_eq_true] at h
    simp [h.1, h.2]
  · rename_i h
    rw [Bool.and_eq_true] at h
    simp only [List.not_mem_nil, false_iff]
    rintro ⟨hp, hn, _⟩
    exact h ⟨hp, hn⟩

theorem mem_triplets_iff (s : Scope) (p n : TaggedTrack) (laterP laterN : List TaggedTrack)
    (prongs : List Track) :
    prongs ∈ triplets s p n laterP laterN ↔
      s.allowsTriplet p = true ∧ s.allowsTriplet n = true ∧
        ((∃ q ∈ partners s p laterP, prongs = [p.track, n.track, q.track]) ∨
          ∃ q ∈ partners s n laterN, prongs = [n.track, p.track, q.track]) := by
  unfold triplets
  split
  · rename_i h
    rw [Bool.and_eq_true] at h
    simp [h.1, h.2, eq_comm]
  · rename_i h
    rw [Bool.and_eq_true] at h
    simp only [List.not_mem_nil, false_iff]
    rintro ⟨hp, hn, _⟩
    exact h ⟨hp, hn⟩

/-- The ways to form a combination: a pair of a positive and a negative track, or a
triplet that a second positive or a second negative track completes. -/
inductive Formed (s : Scope) (positives negatives : List TaggedTrack) : List Track → Prop
  | pair {p n : TaggedTrack} (hp : p ∈ positives) (hn : n ∈ negatives)
      (hallows : s.allowsPair p = true ∧ s.allowsPair n = true) :
      Formed s positives negatives [p.track, n.track]
  | secondPositive {p n q : TaggedTrack} (hp : p ∈ positives) (hn : n ∈ negatives)
      (hq : q ∈ positives) (hid : q.track.id ≠ p.track.id)
      (hallows : s.allowsTriplet p = true ∧ s.allowsTriplet n = true ∧
        s.allowsTriplet q = true) :
      Formed s positives negatives [p.track, n.track, q.track]
  | secondNegative {p n q : TaggedTrack} (hp : p ∈ positives) (hn : n ∈ negatives)
      (hq : q ∈ negatives) (hid : q.track.id ≠ n.track.id)
      (hallows : s.allowsTriplet p = true ∧ s.allowsTriplet n = true ∧
        s.allowsTriplet q = true) :
      Formed s positives negatives [n.track, p.track, q.track]

theorem formed_of_mem_all {s : Scope} {positives negatives : List TaggedTrack}
    {prongs : List Track} (h : prongs ∈ all s positives negatives) :
    Formed s positives negatives prongs := by
  rw [all_eq, List.mem_flatMap] at h
  obtain ⟨⟨p, laterP⟩, hpl, h⟩ := h
  rw [List.mem_flatMap] at h
  obtain ⟨⟨n, laterN⟩, hnl, h⟩ := h
  obtain ⟨hp, hlaterP⟩ := mem_of_mem_withLater hpl
  obtain ⟨hn, hlaterN⟩ := mem_of_mem_withLater hnl
  rcases List.mem_append.mp h with hpair | htriplet
  · obtain ⟨hap, han, rfl⟩ := (mem_pairs_iff s p n prongs).mp hpair
    exact .pair hp hn ⟨hap, han⟩
  · obtain ⟨hap, han, hcompleted⟩ := (mem_triplets_iff s p n laterP laterN prongs).mp htriplet
    rcases hcompleted with ⟨q, hq, rfl⟩ | ⟨q, hq, rfl⟩
    · obtain ⟨hq, haq, hid⟩ := (mem_partners_iff s p q laterP).mp hq
      exact .secondPositive hp hn (hlaterP q hq) hid ⟨hap, han, haq⟩
    · obtain ⟨hq, haq, hid⟩ := (mem_partners_iff s n q laterN).mp hq
      exact .secondNegative hp hn (hlaterN q hq) hid ⟨hap, han, haq⟩

/-- The number of tracks tells the arity of a combination. -/
def arityOf (prongs : List Track) : Arity := if prongs.length = 2 then .twoProng else .threeProng

/-- From positive and negative tracks, every combination follows the charges of its
arity. -/
theorem Formed.follows {s : Scope} {positives negatives : List TaggedTrack}
    {prongs : List Track} (h : Formed s positives negatives prongs)
    (hpos : ∀ t ∈ positives, t.track.sign = .positive)
    (hneg : ∀ t ∈ negatives, t.track.sign = .negative) :
    (arityOf prongs).Follows (prongs.map (·.sign)) := by
  cases h with
  | pair hp hn => simp [arityOf, Arity.Follows, hpos _ hp, hneg _ hn]
  | secondPositive hp hn hq => simp [arityOf, Arity.Follows, hpos _ hp, hneg _ hn, hpos _ hq]
  | secondNegative hp hn hq => simp [arityOf, Arity.Follows, hpos _ hp, hneg _ hn, hneg _ hq]

/-! ## Wider scopes -/

/-- A scope that allows at least what another one allows. -/
structure Scope.Within (s wide : Scope) : Prop where
  exhaustive : s.exhaustive = true → wide.exhaustive = true
  threeProng : s.threeProng = wide.threeProng

variable {s wide : Scope} (h : s.Within wide)

include h

theorem allows_of_within {role : Role} {t : TaggedTrack} (ha : s.allows role t = true) :
    wide.allows role t = true := by
  unfold Scope.allows at *
  rw [Bool.or_eq_true] at *
  rcases ha with he | hr
  · exact Or.inl (h.exhaustive he)
  · exact Or.inr hr

theorem allowsTriplet_of_within {t : TaggedTrack} (ha : s.allowsTriplet t = true) :
    wide.allowsTriplet t = true := by
  unfold Scope.allowsTriplet at *
  rw [Bool.and_eq_true] at *
  exact ⟨h.threeProng ▸ ha.1, allows_of_within h ha.2⟩

omit h in
/-- What is kept under a condition is kept under a weaker one. -/
theorem ite_sublist {c d : Bool} {xs ys : List α} (hcd : c = true → d = true)
    (hxs : xs.Sublist ys) :
    (if c then xs else []).Sublist (if d then ys else []) := by
  cases c
  · exact List.nil_sublist _
  · rw [hcd rfl]
    exact hxs

theorem partners_sublist (t : TaggedTrack) (later : List TaggedTrack) :
    (partners s t later).Sublist (partners wide t later) := by
  apply List.monotone_filter_right
  intro u hu
  rw [Bool.and_eq_true] at *
  exact ⟨allowsTriplet_of_within h hu.1, hu.2⟩

theorem pairs_sublist (p n : TaggedTrack) : (pairs s p n).Sublist (pairs wide p n) := by
  apply ite_sublist
  · intro hc
    rw [Bool.and_eq_true] at *
    exact ⟨allows_of_within h hc.1, allows_of_within h hc.2⟩
  · exact List.Sublist.refl _

theorem triplets_sublist (p n : TaggedTrack) (laterP laterN : List TaggedTrack) :
    (triplets s p n laterP laterN).Sublist (triplets wide p n laterP laterN) := by
  apply ite_sublist
  · intro hc
    rw [Bool.and_eq_true] at *
    exact ⟨allowsTriplet_of_within h hc.1, allowsTriplet_of_within h hc.2⟩
  · exact ((partners_sublist h p laterP).map _).append ((partners_sublist h n laterN).map _)

/-- A wider scope keeps every combination in its place, and adds others. -/
theorem all_sublist (positives negatives : List TaggedTrack) :
    (all s positives negatives).Sublist (all wide positives negatives) := by
  rw [all_eq, all_eq]
  apply List.Sublist.flatMap_right
  rintro ⟨p, laterP⟩ _
  apply List.Sublist.flatMap_right
  rintro ⟨n, laterN⟩ _
  exact (pairs_sublist h p n).append (triplets_sublist h p n laterP laterN)

end DecaySearch.Combination
