import BookmarkGraph.Proofs.Recommend.Evidence

/-!
# Running again changes nothing

A session clears its scores and prepares its strategy anew, so a second run makes the same ranked
lists and asks for the same writes. It is left to show that writes of ranked lists leave the rows of
a store alone when the store has just received them.

Rows are known by their keys and by the list under each key. No write removes a key, and the second
time around no write adds one, so the keys stay with their order. The list of a profile that is
written is decided by the last session that ranks the profile, whatever was there before; all other
lists are not touched at all. Only the counts of the store keep growing.
-/

namespace BookmarkGraph

open Domain

/-! ## Keys of a store -/

def Write.profile : Write → ElementId
  | clear profile => profile
  | insert profile _ => profile

namespace Store

theorem keys_apply (s : Store) (w : Write) :
    (s.apply w).rows.keys
      = if w.profile ∈ s.rows.keys then s.rows.keys else s.rows.keys ++ [w.profile] := by
  cases w with
  | clear profile => exact Table.keys_update ..
  | insert profile entry => exact Table.keys_update ..

theorem keys_foldl_apply {ws : List Write} {s : Store}
    (h : ∀ w ∈ ws, w.profile ∈ s.rows.keys) : (ws.foldl apply s).rows.keys = s.rows.keys := by
  refine List.foldlRecOn (motive := fun t : Store ↦ t.rows.keys = s.rows.keys) ws apply rfl ?_
  intro t ht w hw
  rw [keys_apply, ht, if_pos (h w hw)]

theorem mem_keys_foldl_apply {ws : List Write} {w : Write} (h : w ∈ ws) (s : Store) :
    w.profile ∈ (ws.foldl apply s).rows.keys := by
  induction ws using List.reverseRecOn with
  | nil => exact absurd h List.not_mem_nil
  | append_singleton ws last ih =>
    rw [List.foldl_append, List.foldl_cons, List.foldl_nil, keys_apply]
    rcases List.mem_append.mp h with h | h
    · split
      · exact ih h
      · exact List.mem_append_left _ (ih h)
    · obtain rfl := List.mem_singleton.mp h
      split
      · assumption
      · exact List.mem_append_right _ List.mem_cons_self

theorem get?_rows_of_mem_keys {s : Store} {profile : ElementId} (h : profile ∈ s.rows.keys) :
    s.rows.get? profile = some (s.recommendationsFor profile) := by
  obtain ⟨listings, hget⟩ := Table.exists_get?_of_mem_keys h
  rw [recommendationsFor, hget, Option.getD_some]

end Store

/-! ## Writing twice -/

/-- **Replay.** A store that has received the writes of sessions keeps its rows when it receives
them again. -/
theorem Batch.rows_replay (sessions : List Session) (store : Store) :
    ((writes sessions).foldl Store.apply ((writes sessions).foldl Store.apply store)).rows
      = ((writes sessions).foldl Store.apply store).rows := by
  have hkeys := Store.keys_foldl_apply fun w (hw : w ∈ writes sessions) ↦
    Store.mem_keys_foldl_apply hw store
  refine Table.ext_get? hkeys fun profile hprofile ↦ ?_
  rw [Store.get?_rows_of_mem_keys hprofile, Store.get?_rows_of_mem_keys (hkeys ▸ hprofile),
    recommendationsFor_writes, recommendationsFor_writes]
  -- either some session ranks the profile, both times the same, or the list is not touched
  cases sessions.reverse.findSome? fun session ↦ session.ranking? profile with
  | none => rfl
  | some listings => rfl

/-- A store behind an open gate can be written twice. -/
theorem Batch.exists_replay (sessions : List Session) (store : Store) :
    ∃ first second, (Sink.ofStore store none).writeAll (writes sessions) = (.ok (), first) ∧
      first.writeAll (writes sessions) = (.ok (), second) ∧
        second.store.rows = first.store.rows :=
  ⟨_, _, Sink.writeAll_open rfl _, Sink.writeAll_open rfl _, rows_replay sessions store⟩

namespace Session

variable {s t : Session}

/-- What a session has collected is cleared, so a run of a session that has run ends like the first
one. -/
theorem evaluate_again (h : s.evaluate = .ok t) : t.evaluate = .ok t := by
  rcases s.recommend_cases with ⟨e, u, hfails⟩ | ⟨scoring, tally, hinitiate, hscore⟩
  · rw [evaluate, hfails] at h
    cases h
  · rw [evaluate_of_scoring hinitiate hscore] at h
    obtain rfl := Except.ok.inj h
    have hagain : { s with scoring, tally : Session }.strategy.initiate = .ok scoring := hinitiate
    exact evaluate_of_scoring hagain hscore

theorem recommend_again (h : s.evaluate = .ok t) (store : Store) :
    ∃ summary first second, s.recommend (.ofStore store none) = (.ok summary, t, first) ∧
      t.recommend first = (.ok summary, t, second) ∧ second.store.rows = first.store.rows := by
  have hwrites : Batch.writes [t] = t.writes := List.append_nil t.writes
  obtain ⟨first, second, hfirst, hsecond, hrows⟩ := Batch.exists_replay [t] store
  rw [hwrites] at hfirst hsecond
  refine ⟨t.summary, first, second, ?_, ?_, hrows⟩
  · rw [(recommend_of_evaluate h).2, hfirst]
    rfl
  · rw [(recommend_of_evaluate (evaluate_again h)).2, hsecond]
    rfl

end Session

/-! ## Batches and sessions of the library -/

/-- **Running again changes nothing.** A batch of strategies of the library over a snapshot that
builds, run again over the store that it has left, reports the same and leaves every list and the
order of the profiles as they are, whatever the store held at first. So does a session of either
strategy, in whatever state it was before; it also ranks the same lists again. -/
theorem Batch.rerun_unchanged (config : Config) (store : Store) :
    (∀ s g build, s.buildWithReport = .ok (g, build) →
      (∀ name ∈ config.strategies, name ∈ Registry.builtins.names) →
      ∃ report first second, run .builtins config s (.ofStore store none) = (.ok report, first) ∧
        run .builtins config s first = (.ok report, second) ∧
        second.store.rows = first.store.rows ∧ second.store.contents = first.store.contents ∧
        ∀ profile, second.store.recommendationsFor profile
          = first.store.recommendationsFor profile) ∧
    ∀ g : Graph, g.Reachable → ∀ session : Session,
      session.strategy = Collaborative.strategy ⟨g, config⟩ ∨
        session.strategy = Popularity.strategy ⟨g, config⟩ →
      ∃ summary t t' first second,
        session.recommend (.ofStore store none) = (.ok summary, t, first) ∧
        t.recommend first = (.ok summary, t', second) ∧ t'.ranked = t.ranked ∧
        second.store.rows = first.store.rows := by
  constructor
  · intro s g build hbuild hnames
    obtain ⟨first, second, hfirst, hsecond, hrows⟩ :=
      exists_replay (g.evidence.sessions config) store
    refine ⟨⟨build, (g.evidence.sessions config).map Session.summary⟩, first, second, ?_, ?_, hrows,
      ?_, fun profile ↦ ?_⟩
    · rw [run_builtins hbuild hnames, hfirst]
      rfl
    · rw [run_builtins hbuild hnames, hsecond]
      rfl
    · rw [Store.contents, hrows, Store.contents]
    · rw [Store.recommendationsFor, hrows, Store.recommendationsFor]
  · intro g hg session hsession
    have hevaluate : ∃ t, session.evaluate = .ok t := by
      rcases hsession with hsession | hsession
      · have hinitiate := congrArg Strategy.initiate (hsession.trans (hg.collaborative_eq config))
        exact ⟨_, Session.evaluate_of_scoring hinitiate rfl⟩
      · have hinitiate := congrArg Strategy.initiate (hsession.trans (hg.popularity_eq config))
        exact ⟨_, Session.evaluate_of_scoring hinitiate rfl⟩
    obtain ⟨t, ht⟩ := hevaluate
    obtain ⟨summary, first, second, hfirst, hsecond, hrows⟩ := Session.recommend_again ht store
    exact ⟨summary, t, t, first, second, hfirst, hsecond, rfl, hrows⟩

theorem Batch.rerun_unchanged_pair :
    let s : Snapshot := {
      profiles := [{ id := 1, username := "ann" }, { id := 2, username := "bob" }]
      listings := [{ id := 1, title := "Atlas" }]
      bookmarks := [⟨2, 1⟩] }
    let config : Config := { strategies := ["popularity", "graph_cf", "popularity"] }
    let store := Store.empty.insert (profileId 2) ⟨listingId 9, .one⟩
    let session : Session :=
      { Session.start (Collaborative.strategy ⟨.wild, config⟩) config with tally := ⟨.empty, 3⟩ }
    (∃ report first second, run .builtins config s (.ofStore store none) = (.ok report, first) ∧
      run .builtins config s first = (.ok report, second) ∧
      second.store.contents = [⟨profileId 1, [⟨listingId 1, .one⟩]⟩] ∧
      second.store.rows.keys = [profileId 2, profileId 1]) ∧
    ∃ summary t t' first second,
      session.recommend (.ofStore store none) = (.ok summary, t, first) ∧
      t.recommend first = (.ok summary, t', second) ∧ t'.ranked = t.ranked ∧
      second.store.rows = first.store.rows := by
  intro s config store session
  obtain ⟨hbatch, hsession⟩ := rerun_unchanged config store
  have hreport : s.buildWithReport.map (·.2) = .ok ⟨3, 1, 0⟩ := by decide +kernel
  obtain ⟨⟨g, build⟩, hbuild, -⟩ := map_eq_ok.mp hreport
  obtain ⟨report, first, second, hfirst, hsecond, hrows, hcontents, -⟩ :=
    hbatch s g build hbuild (by decide)
  have hstored : (run .builtins config s (.ofStore store none)).2.store.contents
      = [⟨profileId 1, [⟨listingId 1, .one⟩]⟩] := by decide +kernel
  have hkeys : (run .builtins config s (.ofStore store none)).2.store.rows.keys
      = [profileId 2, profileId 1] := by decide +kernel
  rw [hfirst] at hstored hkeys
  exact ⟨⟨report, first, second, hfirst, hsecond, hcontents.trans hstored, by rw [hrows, hkeys]⟩,
    hsession .wild Graph.reachable_wild session (.inl rfl)⟩

end BookmarkGraph
