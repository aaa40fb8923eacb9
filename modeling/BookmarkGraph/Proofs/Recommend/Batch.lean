import BookmarkGraph.Proofs.Recommend.Stored

/-!
# From score tables to the store

What a strategy may show carries over from its score tables to everything that a batch stores. The
argument does not depend on the strategies: a ranked list is a selection from a table, a session
replaces the lists of the profiles that it has processed by ranked lists, and a batch is a sequence
of sessions. The invariant is `Sound`, for the stored list of every profile.
-/

namespace BookmarkGraph

/-- A list that shows a profile only what it may be shown, nothing twice and not too much. -/
structure Sound (Shown : ElementId → ElementId → Prop) (n : Nat) (profile : ElementId)
    (listings : List ScoredListing) : Prop where
  /-- Every listing may be shown to the profile. -/
  shown : ∀ entry ∈ listings, Shown profile entry.listing
  /-- No listing occurs twice. -/
  nodup : (listings.map (·.listing)).Nodup
  /-- There are at most so many. -/
  length_le : listings.length ≤ n

variable {Shown : ElementId → ElementId → Prop} {n : Nat}

theorem sound_nil (profile : ElementId) : Sound Shown n profile [] where
  shown _ h := absurd h List.not_mem_nil
  nodup := List.nodup_nil
  length_le := Nat.zero_le n

theorem ScoreTable.map_listing_scored (t : ScoreTable) : t.scored.map (·.listing) = t.keys := by
  rw [scored, List.map_map]
  rfl

theorem ScoreTable.nodup_ranked (t : ScoreTable) (n : Nat) :
    ((t.ranked n).map (·.listing)).Nodup := by
  have hsorted := (List.mergeSort_perm t.scored rankedBefore).map (·.listing)
  rw [map_listing_scored] at hsorted
  exact (hsorted.nodup_iff.mpr t.nodup_keys).sublist ((List.take_sublist n _).map _)

theorem ScoreTable.sound_ranked {t : ScoreTable} {profile : ElementId}
    (h : ∀ listing ∈ t.keys, Shown profile listing) : Sound Shown n profile (t.ranked n) where
  shown entry hentry := by
    have hscored := List.mem_mergeSort.mp (List.mem_of_mem_take hentry)
    obtain ⟨row, hrow, rfl⟩ := List.mem_map.mp hscored
    exact h row.1 (List.mem_map_of_mem hrow)
  nodup := t.nodup_ranked n
  length_le := by
    rw [ranked, List.length_take]
    exact Nat.min_le_left _ _

/-! ## Tallies -/

/-- The tables of a tally score for each profile what it may be shown. -/
def Tally.Shows (t : Tally) (Shown : ElementId → ElementId → Prop) : Prop :=
  ∀ profile table, t.scores.get? profile = some table → ∀ listing ∈ table.keys, Shown profile listing

theorem Tally.shows_fill {score : ElementId → Except GraphError ScoreTable}
    {profiles : List ElementId}
    (h : ∀ profile ∈ profiles, ∀ table, score profile = .ok table →
      ∀ listing ∈ table.keys, Shown profile listing) :
    (Tally.empty.fill score profiles).Shows Shown := by
  have hempty : Tally.empty.Shows Shown := by
    intro profile table hget
    simp [Tally.empty, Table.get?, Table.empty] at hget
  refine List.foldlRecOn (motive := fun t : Tally ↦ t.Shows Shown) profiles _ hempty ?_
  intro t ht profile hprofile other table hget listing hlisting
  cases hscore : score profile with
  | ok scored =>
    simp only [hscore, Tally.assign, ProfileScores.entry, Table.get?_update] at hget
    split at hget
    · rename_i heq
      rw [beq_iff_eq.mp heq]
      exact h profile hprofile table (Option.some.inj hget ▸ hscore) listing hlisting
    · exact ht other table hget listing hlisting
  | error e =>
    -- a failed profile keeps the table that it had, or starts an empty one
    simp only [hscore, Tally.fail, ProfileScores.entry, Table.get?_update] at hget
    split at hget
    · rename_i heq
      obtain rfl := beq_iff_eq.mp heq
      cases hold : t.scores.get? other with
      | none =>
        rw [hold] at hget
        rw [← Option.some.inj hget] at hlisting
        exact absurd hlisting List.not_mem_nil
      | some old =>
        rw [hold] at hget
        rw [← Option.some.inj hget] at hlisting
        exact ht other old hold listing hlisting
    · exact ht other table hget listing hlisting

/-! ## Sessions -/

/-- An open sink whose store shows every profile a sound list. -/
structure Sink.Sound (sink : Sink) (Shown : ElementId → ElementId → Prop) (n : Nat) : Prop where
  /-- No write is refused. -/
  is_open : sink.refuses = none
  /-- Every list is sound. -/
  stored : ∀ profile, BookmarkGraph.Sound Shown n profile (sink.store.recommendationsFor profile)

/-- A run of a strategy whose tables score only what may be shown keeps the store sound. -/
theorem Session.sound_recommend {s : Session} {sink : Sink} (hn : s.topN = n)
    (hs : ∀ scoring, s.strategy.initiate = .ok scoring → (scoring .empty).2.Shows Shown)
    (h : sink.Sound Shown n) : (s.recommend sink).2.2.Sound Shown n := by
  rcases s.recommend_cases with ⟨e, t, hfails⟩ | ⟨scoring, tally, hinitiate, hscore⟩
  · rw [hfails]
    exact h
  · have hshows := hs scoring hinitiate
    rw [hscore] at hshows
    rw [recommend_of_scoring hinitiate hscore, Sink.writeAll_open h.is_open]
    refine ⟨rfl, fun profile ↦ ?_⟩
    -- the list of a profile is replaced as a whole or stays
    change BookmarkGraph.Sound Shown n profile
      (({ s with scoring, tally }.writes.foldl Store.apply sink.store).recommendationsFor profile)
    rw [recommendationsFor_writes, ranking?]
    cases hget : tally.scores.get? profile with
    | none => exact h.stored profile
    | some table => exact hn ▸ ScoreTable.sound_ranked (hshows profile table hget)

/-! ## Batches -/

namespace Batch

theorem sound_runAll {registry : Registry} {context : Context} {names : List String} {sink : Sink}
    (hregistry : ∀ name session, registry.create name context = .ok session →
      session.topN = n ∧ ∀ scoring, session.strategy.initiate = .ok scoring →
        (scoring .empty).2.Shows Shown)
    (h : sink.Sound Shown n) : (runAll registry context sink names).2.Sound Shown n := by
  induction names generalizing sink with
  | nil => exact h
  | cons name rest ih =>
    cases hcreate : registry.create name context with
    | error e =>
      simp only [runAll, hcreate]
      exact h
    | ok session =>
      obtain ⟨hn, hs⟩ := hregistry name session hcreate
      have hnext := Session.sound_recommend hn hs h
      rcases hrun : session.recommend sink with ⟨answer, session', sink'⟩
      rw [hrun] at hnext
      simp only [runAll, hcreate, hrun]
      -- a session that fails ends the batch, and what it has stored is sound all the same
      cases answer with
      | error e => exact hnext
      | ok summary => exact ih hnext

end Batch

end BookmarkGraph
