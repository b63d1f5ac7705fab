-- Which rows name a track twice. Legs of the same sign never have one identity. Legs
-- of opposite sign are not compared, so they may.
import DecaySearch.Proofs.EventSearch

namespace DecaySearch

/-! ## The legs of a combination -/

namespace Combination

variable {s : Scope} {positives negatives : List TaggedTrack} {prongs : List Track}

/-- The tracks of a combination have distinct identities when its legs of opposite sign
do. -/
theorem Formed.nodup_ids_iff (h : Formed s positives negatives prongs)
    (hpos : ∀ t ∈ positives, t.track.sign = .positive)
    (hneg : ∀ t ∈ negatives, t.track.sign = .negative) :
    (prongs.map (·.id)).Nodup ↔
      ∀ a ∈ prongs, ∀ b ∈ prongs, a.sign ≠ b.sign → a.id ≠ b.id := by
  cases h with
  | pair hp hn =>
    have hp := hpos _ hp
    have hn := hneg _ hn
    simp [hp, hn, eq_comm]
  | secondPositive hp hn hq hid =>
    have hp := hpos _ hp
    have hn := hneg _ hn
    have hq := hpos _ hq
    simp [hp, hn, hq, hid, Ne.symm hid, eq_comm]
  | secondNegative hp hn hq hid =>
    have hp := hpos _ hp
    have hn := hneg _ hn
    have hq := hneg _ hq
    simp [hp, hn, hq, hid, Ne.symm hid, eq_comm]

theorem Formed.outer_ids_ne (h : Formed s positives negatives prongs)
    (hthree : prongs.length = 3) :
    ∃ a b c, prongs = [a, b, c] ∧ a.id ≠ c.id := by
  cases h with
  | pair => cases hthree
  | secondPositive _ _ _ hid => exact ⟨_, _, _, rfl, Ne.symm hid⟩
  | secondNegative _ _ _ hid => exact ⟨_, _, _, rfl, Ne.symm hid⟩

end Combination

/-! ## The rows of an event -/

namespace Search

theorem nodup_ids_iff {s : Search} {event : Event} {prongs : List Track}
    (h : prongs ∈ s.formed event) :
    (prongs.map (·.id)).Nodup ↔
      ∀ a ∈ prongs, ∀ b ∈ prongs, a.sign ≠ b.sign → a.id ≠ b.id :=
  (Combination.formed_of_mem_all h).nodup_ids_iff (fun _ ht => (of_mem_signed ht).2)
    (fun _ ht => (of_mem_signed ht).2)

theorem mem_tracks_of_mem_formed {s : Search} {event : Event} {prongs : List Track}
    (h : prongs ∈ s.formed event) :
    ∀ t ∈ prongs, t ∈ event.tracks ∧ (t.sign = .positive ∨ t.sign = .negative) := by
  have hpos : ∀ u ∈ s.signed event .positive,
      u.track ∈ event.tracks ∧ (u.track.sign = .positive ∨ u.track.sign = .negative) :=
    fun u hu => ⟨(of_mem_signed hu).1, Or.inl (of_mem_signed hu).2⟩
  have hneg : ∀ u ∈ s.signed event .negative,
      u.track ∈ event.tracks ∧ (u.track.sign = .positive ∨ u.track.sign = .negative) :=
    fun u hu => ⟨(of_mem_signed hu).1, Or.inr (of_mem_signed hu).2⟩
  cases Combination.formed_of_mem_all h with
  | pair hp hn => simp [hpos _ hp, hneg _ hn]
  | secondPositive hp hn hq => simp [hpos _ hp, hneg _ hn, hpos _ hq]
  | secondNegative hp hn hq => simp [hpos _ hp, hneg _ hn, hneg _ hq]

/-- A row of an arity names the tracks of an accepted combination of that arity. -/
theorem combination_of_row {s : Search} (hs : s.WellFormed) {event : Event} {arity : Arity}
    {row : CandidateRow} (h : row ∈ (s.report event).output.rows arity) :
    ∃ prongs ∈ s.formed event, Combination.arityOf prongs = arity ∧
      (s.outcome arity event.primaryVertex prongs).accepted = true ∧
      row.tracks = prongs.map (·.id) := by
  obtain ⟨prongs, hprongs, haccepted, rfl⟩ := (mem_rows_report_iff s event arity row).mp h
  unfold Evaluation.acceptedAs at haccepted
  rw [Bool.and_eq_true, arity_outcome, hs.hypotheses.arities, decide_eq_true_iff] at haccepted
  obtain ⟨haccepted, rfl⟩ := haccepted
  refine ⟨prongs, hprongs, rfl, haccepted, ?_⟩
  unfold Candidate.toRow
  rw [prongs_outcome]

/-- The tracks of an accepted combination stand in a row. -/
theorem row_of_combination {s : Search} (hs : s.WellFormed) {event : Event}
    {prongs : List Track} (hprongs : prongs ∈ s.formed event)
    (haccepted : (s.outcome (Combination.arityOf prongs) event.primaryVertex prongs).accepted =
      true) :
    ∃ row ∈ (s.report event).output.rows (Combination.arityOf prongs),
      row.tracks = prongs.map (·.id) := by
  refine ⟨_, (mem_rows_report_iff s event _ _).mpr ⟨prongs, hprongs, ?_, rfl⟩, ?_⟩
  · unfold Evaluation.acceptedAs
    rw [Bool.and_eq_true, arity_outcome, hs.hypotheses.arities, decide_eq_true_iff]
    exact ⟨haccepted, rfl⟩
  · unfold Candidate.toRow
    rw [prongs_outcome]

/-- The rows name distinct tracks if and only if the accepted combinations have distinct
legs of opposite sign. -/
theorem nodup_rows_iff {s : Search} (hs : s.WellFormed) (event : Event) :
    (∀ arity, ∀ row ∈ (s.report event).output.rows arity, row.tracks.Nodup) ↔
      ∀ prongs ∈ s.formed event, ∀ e,
        s.evaluate event.primaryVertex prongs = .ok e → e.accepted = true →
          ∀ a ∈ prongs, ∀ b ∈ prongs, a.sign ≠ b.sign → a.id ≠ b.id := by
  constructor
  · intro hrows prongs hprongs e he hacc
    rw [evaluate_eq hs (follows_of_mem_formed hprongs)] at he
    cases he
    obtain ⟨row, hrow, hids⟩ := row_of_combination hs hprongs hacc
    rw [← nodup_ids_iff hprongs, ← hids]
    exact hrows _ row hrow
  · intro hlegs arity row hrow
    obtain ⟨prongs, hprongs, rfl, hacc, hids⟩ := combination_of_row hs hrow
    have he := evaluate_eq hs (follows_of_mem_formed hprongs) event.primaryVertex
    rw [hids, nodup_ids_iff hprongs]
    exact hlegs prongs hprongs _ he hacc

end Search

/-- No row names a track twice exactly when, in every accepted combination, the legs of
opposite sign have different identities. Legs of the same sign always do. So it is enough
that no positive track of the event shares its identity with a negative one. -/
theorem rows_name_distinct_tracks_exactly_when_opposite_legs_differ {s : Search}
    (hs : s.WellFormed) {event : Event} (haccepted : event.accepted = true) :
    ∃ tagged r, s.tag event = .ok tagged ∧ s.process event = .ok r ∧
      ((∀ arity, ∀ row ∈ r.output.rows arity, row.tracks.Nodup) ↔
        ∀ prongs ∈ s.combinations tagged, ∀ e,
          s.evaluate event.primaryVertex prongs = .ok e → e.accepted = true →
            ∀ a ∈ prongs, ∀ b ∈ prongs, a.sign ≠ b.sign → a.id ≠ b.id) ∧
      (∀ row ∈ r.output.threeProng, ∃ i j k, row.tracks = [i, j, k] ∧ i ≠ k) ∧
      ((∀ a ∈ event.tracks, ∀ b ∈ event.tracks,
          a.sign = .positive → b.sign = .negative → a.id ≠ b.id) →
        ∀ arity, ∀ row ∈ r.output.rows arity, row.tracks.Nodup) := by
  refine ⟨s.tagged event, s.report event, Search.tag_eq hs event,
    Search.process_eq hs haccepted, ?_, ?_, ?_⟩
  · rw [Search.combinations_tagged]
    exact Search.nodup_rows_iff hs event
  · intro row hrow
    obtain ⟨prongs, hprongs, harity, _, hids⟩ :=
      Search.combination_of_row hs (show row ∈ (s.report event).output.rows .threeProng from hrow)
    have hlen : prongs.length = 3 := by
      have := Arity.length_of_follows (Search.follows_of_mem_formed hprongs)
      rw [harity] at this
      exact this
    obtain ⟨a, b, c, rfl, hne⟩ := (Combination.formed_of_mem_all hprongs).outer_ids_ne hlen
    exact ⟨a.id, b.id, c.id, hids, hne⟩
  · intro hevent
    rw [Search.nodup_rows_iff hs event]
    intro prongs hprongs _ _ _ a ha b hb hsigns
    obtain ⟨hain, hasign⟩ := Search.mem_tracks_of_mem_formed hprongs a ha
    obtain ⟨hbin, hbsign⟩ := Search.mem_tracks_of_mem_formed hprongs b hb
    rcases hasign with hasign | hasign <;> rcases hbsign with hbsign | hbsign
    · exact absurd (hasign.trans hbsign.symm) hsigns
    · exact hevent a hain b hbin hasign hbsign
    · exact fun hid => hevent b hbin a hain hbsign hasign hid.symm
    · exact absurd (hasign.trans hbsign.symm) hsigns

/-- An event with a positive and a negative track of the same identity. -/
def Sample.twins : Event :=
  ⟨.zero, true,
    [Sample.track 1 .positive ⟨1.25, 0.75, 0⟩, Sample.track 1 .negative ⟨1.25, -0.75, 0⟩], []⟩

/-- A track is paired with another one of its own identity, and the pair is accepted. -/
theorem a_track_is_paired_with_its_namesake :
    ∃ r, (Sample.search true true).process Sample.twins = .ok r ∧
      ¬ ∀ arity, ∀ row ∈ r.output.rows arity, row.tracks.Nodup := by
  have hs := Sample.search_wellFormed true true
  obtain ⟨tagged, r, htag, hrun, hexact, _⟩ :=
    rows_name_distinct_tracks_exactly_when_opposite_legs_differ hs
      (show Sample.twins.accepted = true from rfl)
  refine ⟨r, hrun, ?_⟩
  rw [hexact]
  intro hlegs
  have hformed : Sample.twins.tracks ∈ (Sample.search true true).combinations tagged := by
    rw [Search.tag_eq hs] at htag
    cases htag
    rw [Search.combinations_tagged]
    exact List.mem_singleton_self _
  have haccepted : ((Sample.search true true).outcome .twoProng .zero
      Sample.twins.tracks).accepted = true := by decide +kernel
  have hevaluated := Search.evaluate_eq hs
    (show Arity.twoProng.Follows (Sample.twins.tracks.map (·.sign)) from rfl) .zero
  exact hlegs _ hformed _ hevaluated haccepted _ List.mem_cons_self _
    (List.mem_cons_of_mem _ List.mem_cons_self) (by decide) rfl

end DecaySearch
