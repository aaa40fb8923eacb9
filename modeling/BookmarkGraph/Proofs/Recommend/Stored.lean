import BookmarkGraph.Proofs.Recommend.Handover
import BookmarkGraph.Proofs.Table.Updates
import Mathlib.Algebra.Ring.Nat
import Mathlib.Data.List.Forall2

/-!
# What a batch leaves in the store

A ranked list that is handed over takes the place of what its profile had. A profile is therefore
left with what the last session to process it ranks for it, whatever earlier sessions or earlier
batches wrote, and a profile that no session processes keeps what it had. `Batch.run_leaves` states
this for a whole batch, together with the counts of the store and of the report.
-/

namespace BookmarkGraph

/-! ## Single writes and ranked lists -/

namespace Store

theorem recommendationsFor_deleteAll (s : Store) (profile other : ElementId) :
    (s.deleteAll profile).recommendationsFor other
      = if other = profile then [] else s.recommendationsFor other := by
  rw [recommendationsFor, deleteAll, Table.get?_update]
  by_cases h : other = profile
  · rw [if_pos h, if_pos (beq_iff_eq.mpr h), Option.getD_some]
  · rw [if_neg h, if_neg (by simpa using h), recommendationsFor]

theorem recommendationsFor_insert (s : Store) (profile other : ElementId) (entry : ScoredListing) :
    (s.insert profile entry).recommendationsFor other
      = if other = profile then s.recommendationsFor other ++ [entry]
        else s.recommendationsFor other := by
  rw [recommendationsFor, insert, Table.get?_update]
  by_cases h : other = profile
  · rw [if_pos h, if_pos (beq_iff_eq.mpr h), Option.getD_some, h, recommendationsFor]
  · rw [if_neg h, if_neg (by simpa using h), recommendationsFor]

/-- The writes of a ranked list put it in the place of what its profile had. -/
theorem recommendationsFor_writes (s : Store) (list : RankedList) (other : ElementId) :
    (list.writes.foldl apply s).recommendationsFor other
      = if other = list.profile then list.listings else s.recommendationsFor other := by
  obtain ⟨profile, listings⟩ := list
  have hinserts : ∀ s : Store,
      ((listings.map (Write.insert profile)).foldl apply s).recommendationsFor other
        = if other = profile then s.recommendationsFor other ++ listings
          else s.recommendationsFor other := by
    induction listings with
    | nil => simp
    | cons entry rest ih =>
      intro s
      rw [List.map_cons, List.foldl_cons, ih, apply, recommendationsFor_insert]
      by_cases h : other = profile <;> simp [h]
  rw [RankedList.writes, List.foldl_cons, hinserts, apply, recommendationsFor_deleteAll]
  by_cases h : other = profile <;> simp [h]

theorem recommendationsFor_of_not_mem {lists : List RankedList} {profile : ElementId}
    (h : profile ∉ lists.map (·.profile)) (s : Store) :
    ((lists.flatMap RankedList.writes).foldl apply s).recommendationsFor profile
      = s.recommendationsFor profile := by
  induction lists generalizing s with
  | nil => rfl
  | cons list rest ih =>
    rw [List.map_cons, List.mem_cons, not_or] at h
    rw [List.flatMap_cons, List.foldl_append, ih h.2, recommendationsFor_writes, if_neg h.1]

theorem recommendationsFor_of_mem {lists : List RankedList}
    (hnodup : (lists.map (·.profile)).Nodup) {list : RankedList} (h : list ∈ lists) (s : Store) :
    ((lists.flatMap RankedList.writes).foldl apply s).recommendationsFor list.profile
      = list.listings := by
  induction lists generalizing s with
  | nil => exact absurd h List.not_mem_nil
  | cons head rest ih =>
    obtain ⟨hnew, hrest⟩ := List.nodup_cons.mp hnodup
    rw [List.flatMap_cons, List.foldl_append]
    rcases List.mem_cons.mp h with rfl | h
    · rw [recommendationsFor_of_not_mem hnew, recommendationsFor_writes, if_pos rfl]
    · exact ih hrest h _

theorem counts_writes (s : Store) (list : RankedList) :
    (list.writes.foldl apply s).deletes = s.deletes + 1 ∧
      (list.writes.foldl apply s).inserts = s.inserts + list.listings.length := by
  obtain ⟨profile, listings⟩ := list
  have hinserts : ∀ s : Store,
      ((listings.map (Write.insert profile)).foldl apply s).deletes = s.deletes ∧
        ((listings.map (Write.insert profile)).foldl apply s).inserts
          = s.inserts + listings.length := by
    induction listings with
    | nil => exact fun s ↦ ⟨rfl, rfl⟩
    | cons entry rest ih =>
      intro s
      obtain ⟨hdeletes, hcount⟩ := ih (s.insert profile entry)
      refine ⟨hdeletes, hcount.trans ?_⟩
      rw [List.length_cons, Nat.add_comm rest.length, ← Nat.add_assoc]
      rfl
  exact hinserts (s.deleteAll profile)

theorem counts_lists (s : Store) (lists : List RankedList) :
    ((lists.flatMap RankedList.writes).foldl apply s).deletes = s.deletes + lists.length ∧
      ((lists.flatMap RankedList.writes).foldl apply s).inserts
        = s.inserts + (lists.map (·.listings.length)).sum := by
  induction lists generalizing s with
  | nil => exact ⟨rfl, rfl⟩
  | cons list rest ih =>
    obtain ⟨hdeletes, hinserts⟩ := s.counts_writes list
    obtain ⟨hlater, hmore⟩ := ih (list.writes.foldl apply s)
    rw [List.flatMap_cons, List.foldl_append, hlater, hmore, hdeletes, hinserts, List.length_cons,
      List.map_cons, List.sum_cons]
    omega

end Store

/-! ## Sessions -/

namespace Session

/-- The ranked list of a profile, if the session has processed the profile. -/
def ranking? (s : Session) (profile : ElementId) : Option (List ScoredListing) :=
  (s.tally.scores.get? profile).map fun table ↦ table.ranked s.topN

theorem ranking?_eq_some {s : Session} {profile : ElementId} {listings : List ScoredListing} :
    s.ranking? profile = some listings ↔ ⟨profile, listings⟩ ∈ s.ranked := by
  rw [ranking?, Option.map_eq_some_iff, ranked, ProfileScores.ranked, List.mem_map]
  constructor
  · rintro ⟨table, hget, rfl⟩
    exact ⟨(profile, table), Table.get?_eq_some.mp hget, rfl⟩
  · rintro ⟨⟨p, table⟩, hrow, heq⟩
    obtain ⟨rfl, rfl⟩ := RankedList.mk.inj heq
    exact ⟨table, Table.get?_eq_some.mpr hrow, rfl⟩

theorem map_profile_ranked (s : Session) : s.ranked.map (·.profile) = s.tally.scores.keys := by
  rw [ranked, ProfileScores.ranked, List.map_map, Table.keys]
  rfl

theorem ranking?_eq_none {s : Session} {profile : ElementId} :
    s.ranking? profile = none ↔ profile ∉ s.ranked.map (·.profile) := by
  rw [Option.eq_none_iff_forall_ne_some, List.mem_map]
  constructor
  · rintro h ⟨list, hlist, rfl⟩
    exact h list.listings (ranking?_eq_some.mpr hlist)
  · intro h listings hsome
    exact h ⟨_, ranking?_eq_some.mp hsome, rfl⟩

/-- A session replaces the lists of the profiles that it has processed and of no others. -/
theorem recommendationsFor_writes (s : Session) (store : Store) (profile : ElementId) :
    (s.writes.foldl Store.apply store).recommendationsFor profile
      = (s.ranking? profile).getD (store.recommendationsFor profile) := by
  cases h : s.ranking? profile with
  | none => exact Store.recommendationsFor_of_not_mem (ranking?_eq_none.mp h) store
  | some listings =>
    have hnodup : (s.ranked.map (·.profile)).Nodup := by
      rw [map_profile_ranked]
      exact s.tally.scores.nodup_keys
    exact Store.recommendationsFor_of_mem hnodup (ranking?_eq_some.mp h) store

/-- A summary counts the ranked lists of its session, those that are not empty, and their
listings. -/
structure Counts (s : Session) (summary : RunSummary) : Prop where
  /-- Every ranked list replaces the list of a profile. -/
  profiles_eq : summary.profiles = s.ranked.length
  /-- Empty lists are no results. -/
  profilesWithResults_eq :
    summary.profilesWithResults = s.ranked.countP fun list ↦ !list.listings.isEmpty
  /-- Every listing of a ranked list is written. -/
  entriesWritten_eq : summary.entriesWritten = (s.ranked.map (·.listings.length)).sum

theorem foldl_count (lists : List RankedList) (summary : RunSummary) :
    (lists.foldl RunSummary.count summary).profiles = summary.profiles + lists.length ∧
      (lists.foldl RunSummary.count summary).profilesWithResults
        = summary.profilesWithResults + lists.countP (fun list ↦ !list.listings.isEmpty) ∧
      (lists.foldl RunSummary.count summary).entriesWritten
        = summary.entriesWritten + (lists.map (·.listings.length)).sum := by
  induction lists generalizing summary with
  | nil => exact ⟨rfl, rfl, rfl⟩
  | cons list rest ih =>
    obtain ⟨hprofiles, hresults, hentries⟩ := ih (summary.count list)
    rw [List.foldl_cons, hprofiles, hresults, hentries, List.length_cons, List.countP_cons,
      List.map_cons, List.sum_cons]
    refine ⟨?_, ?_, Nat.add_assoc ..⟩
    · rw [Nat.add_comm rest.length, ← Nat.add_assoc]
      rfl
    · rw [Nat.add_comm (rest.countP _), ← Nat.add_assoc, RunSummary.count]
      cases list.listings.isEmpty <;> rfl

theorem counts_summary (s : Session) : s.Counts s.summary := by
  obtain ⟨hprofiles, hresults, hentries⟩ :=
    foldl_count s.ranked { strategy := s.strategy.name, failedProfiles := s.tally.failures }
  exact ⟨hprofiles.trans (Nat.zero_add _), hresults.trans (Nat.zero_add _),
    hentries.trans (Nat.zero_add _)⟩

end Session

/-! ## Batches -/

theorem Registry.topN_of_create {registry : Registry} {name : String} {context : Context}
    {session : Session} (h : registry.create name context = .ok session) :
    session.topN = context.config.topN.toNat := by
  rw [create] at h
  cases hfind : registry.find? name with
  | none => simp [hfind] at h
  | some constructor =>
    cases hconstructor : constructor context with
    | error e => simp [hfind, hconstructor] at h
    | ok strategy =>
      simp only [hfind, hconstructor] at h
      rw [← Except.ok.inj h]
      rfl

namespace Batch

theorem writes_eq (sessions : List Session) :
    writes sessions = (sessions.flatMap Session.ranked).flatMap RankedList.writes := by
  rw [List.flatMap_assoc]
  rfl

/-- The last session to process a profile decides what the profile is left with. -/
theorem recommendationsFor_writes (sessions : List Session) (store : Store) (profile : ElementId) :
    ((writes sessions).foldl Store.apply store).recommendationsFor profile
      = (sessions.reverse.findSome? fun session ↦ session.ranking? profile).getD
          (store.recommendationsFor profile) := by
  induction sessions generalizing store with
  | nil => rfl
  | cons session rest ih =>
    rw [writes_cons, List.foldl_append, ih, Session.recommendationsFor_writes, List.reverse_cons,
      List.findSome?_append]
    cases rest.reverse.findSome? fun session ↦ session.ranking? profile with
    | none => rw [Option.none_or, List.findSome?_singleton, Option.getD_none]
    | some listings => rfl

theorem entriesWritten_eq (report : BatchReport) :
    report.entriesWritten = (report.strategies.map (·.entriesWritten)).sum := by
  rw [BatchReport.entriesWritten, List.sum, List.foldr_map]

theorem topN_of_evaluate {registry : Registry} {context : Context} {names : List String}
    {sessions : List Session} (h : evaluate registry context names = .ok sessions) :
    ∀ session ∈ sessions, session.topN = context.config.topN.toNat := by
  intro session hsession
  obtain ⟨name, -, hname⟩ := exists_of_mem_mapM h hsession
  obtain ⟨fresh, hcreate, hevaluate⟩ := bind_eq_ok.mp hname
  rw [(Session.recommend_of_evaluate hevaluate).1, Registry.topN_of_create hcreate]

/-- What a batch of sessions leaves in a store, and what it says about it. -/
structure Leaves (sessions : List Session) (report : BatchReport) (before after : Store) :
    Prop where
  /-- A profile has the list that the last session to process it ranks for it. Without such a
  session it has what it had. -/
  recommendationsFor_eq : ∀ profile, after.recommendationsFor profile
    = (sessions.reverse.findSome? fun session ↦ session.ranking? profile).getD
        (before.recommendationsFor profile)
  /-- The store was cleared once for every profile of every summary. -/
  deletes_eq : after.deletes = before.deletes + (report.strategies.map (·.profiles)).sum
  /-- As many listings were inserted as the report says. -/
  inserts_eq : after.inserts = before.inserts + report.entriesWritten
  /-- Summaries are those of the sessions, in their order. -/
  counts : List.Forall₂ (fun summary session ↦ Session.Counts session summary)
    report.strategies sessions

theorem leaves_writes {sessions : List Session} {report : BatchReport}
    (h : report.strategies = sessions.map Session.summary) (store : Store) :
    Leaves sessions report store ((writes sessions).foldl Store.apply store) where
  recommendationsFor_eq := recommendationsFor_writes sessions store
  deletes_eq := by
    rw [writes_eq, (Store.counts_lists _ _).1, List.length_flatMap, h, List.map_map]
    congr 2
    exact List.map_congr_left fun session _ ↦ session.counts_summary.profiles_eq.symm
  inserts_eq := by
    rw [writes_eq, (Store.counts_lists _ _).2, entriesWritten_eq, h, List.map_map, List.map_flatMap,
      List.flatMap_def, List.sum_flatten, List.map_map]
    congr 2
    exact List.map_congr_left fun session _ ↦ session.counts_summary.entriesWritten_eq.symm
  counts := by
    rw [h, List.forall₂_map_left_iff, List.forall₂_same]
    exact fun session _ ↦ session.counts_summary

/-- **What a batch leaves in the store.** A batch that succeeds leaves every profile with the ranked
list of the last strategy to process it, or with what it had if there is no such strategy. What the
store counts and what the summaries say adds up over the sessions. -/
theorem run_leaves {registry : Registry} {config : Config} {s : Snapshot} {store : Store}
    {report : BatchReport} (h : (run registry config s (.ofStore store none)).1 = .ok report) :
    ∃ g sessions, s.buildWithReport = .ok (g, report.build) ∧
      evaluate registry ⟨g, config⟩ config.strategies = .ok sessions ∧
      (∀ session ∈ sessions, session.topN = config.topN.toNat) ∧
      Leaves sessions report store (run registry config s (.ofStore store none)).2.store := by
  obtain ⟨g, sessions, hbuild, hsessions, hreport, hrun⟩ := run_of_ok h
  refine ⟨g, sessions, hbuild, hsessions, topN_of_evaluate hsessions, ?_⟩
  rw [hrun, Sink.writeAll_open rfl]
  exact leaves_writes hreport store

theorem run_leaves_pair :
    let config : Config := { strategies := ["second", "first", "second"] }
    let store := (Store.empty.insert (.name "c") ⟨.name "z", .one⟩).insert (.name "d")
      ⟨.name "z", .one⟩
    let run := run .pair config {} (.ofStore store none)
    (∃ report, run.1 = .ok report) ∧
      run.2.store.recommendationsFor (.name "a") = [⟨.name "x", .one⟩] ∧
      run.2.store.recommendationsFor (.name "b") = [⟨.name "y", .one⟩] ∧
      run.2.store.recommendationsFor (.name "c") = [] ∧
      run.2.store.recommendationsFor (.name "d") = [⟨.name "z", .one⟩] ∧
      run.2.store.deletes = 7 ∧ run.2.store.inserts = 6 := by
  intro config store run
  have hreport : (run.1.map fun report ↦
      (report.strategies.map (·.profiles), report.entriesWritten)) = .ok ([2, 3, 2], 4) := by
    decide +kernel
  obtain ⟨report, h, heq⟩ := map_eq_ok.mp hreport
  obtain ⟨hprofiles, hentries⟩ := Prod.mk.inj heq
  obtain ⟨g, sessions, hbuild, hsessions, -, hleaves⟩ := run_leaves h
  obtain rfl : Graph.empty = g := congrArg (·.1) (Except.ok.inj hbuild)
  have hstored : ∀ profile last, (evaluate .pair ⟨.empty, config⟩ config.strategies).map
      (fun sessions ↦ sessions.reverse.findSome? (·.ranking? profile)) = .ok last →
      run.2.store.recommendationsFor profile = last.getD (store.recommendationsFor profile) := by
    intro profile last hlast
    rw [hsessions] at hlast
    rw [← Except.ok.inj hlast]
    exact hleaves.recommendationsFor_eq profile
  refine ⟨⟨report, h⟩, hstored _ (some _) (by decide +kernel),
    hstored _ (some _) (by decide +kernel), hstored _ (some _) (by decide +kernel),
    (hstored _ none (by decide +kernel)).trans (by decide +kernel), ?_, ?_⟩
  · rw [hleaves.deletes_eq, hprofiles]
    rfl
  · rw [hleaves.inserts_eq, hentries]
    rfl

end Batch

end BookmarkGraph
