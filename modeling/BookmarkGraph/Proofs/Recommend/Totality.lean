import BookmarkGraph.Proofs.Enumeration
import BookmarkGraph.Proofs.Recommend.Offers
import BookmarkGraph.Proofs.Recommend.Stored

/-!
# The strategies of the library do not fail

A strategy asks a graph many questions, and each of them could be answered by an error: an id that
names nothing, an element of another kind than expected, a result without an id. None of this
happens on a graph that mutations lead to, whatever its labels and properties are and wherever its
edges go. A query that starts at an id of the graph stays on vertices of the graph, and ids that it
projects are ids of the graph again.

`Strategy.Covers` is where the two strategies meet: both prepare, and both score every profile. The
rest does not depend on the strategy. No two vertices have the same id, so the tally has one table
for every profile, in the order of insertion, and the store is left with what is ranked from it.
-/

namespace BookmarkGraph

open Domain

/-! ## Vertices of one label -/

namespace Graph

def idsWithLabel (g : Graph) (label : String) : List ElementId :=
  (g.rows.filter (·.label = label)).map (·.id)

theorem nodup_idsWithLabel {g : Graph} (hg : g.WellFormed) (label : String) :
    (g.idsWithLabel label).Nodup :=
  hg.nodup_ids.sublist (List.filter_sublist.map _)

end Graph

theorem Catalog.exists_build {g : Graph} (hg : g.WellFormed) (respect : Bool) :
    ∃ c, build g respect = .ok c := by
  have hentry : ∀ index ∈ g.verticesWithLabel Label.listing, ∃ e, entry g index = .ok e := by
    intro index hindex
    obtain ⟨v, hv⟩ := Graph.has_verticesWithLabel hg.vertices_le _ index hindex
    exact ⟨_, entry_eq hg hv⟩
  obtain ⟨entries, hentries⟩ := exists_mapM_eq_ok hentry
  exact ⟨⟨entries, respect⟩, bind_eq_ok.mpr ⟨entries, hentries, rfl⟩⟩

/-! ## Scoring a profile -/

variable {g : Graph} {profile : ElementId} {index : VertexIndex}

theorem Collaborative.exists_scoreProfile (hg : g.WellFormed) (catalog : Catalog)
    (weighting : Weighting) (h : g.find? profile = some index) :
    ∃ table, scoreProfile g catalog weighting profile = .ok table := by
  rw [scoreProfile, ownIds_eq hg h, ok_bind, agenciesOf, targetIds_eq hg h, ok_bind,
    similarIds_eq hg h, ok_bind]
  refine exists_foldlM_eq_ok (fun other hother table ↦ ?_) _
  -- a similar profile is known by its id, and is found again by it
  obtain ⟨w, hw, rfl⟩ := List.mem_map.mp hother
  obtain ⟨place, hplace⟩ := Graph.exists_find?_idAt hg (has_similar hg w hw)
  rw [candidates_eq hg hplace, ok_bind]
  refine exists_foldlM_eq_ok (fun candidate hcandidate table ↦ ?_) table
  obtain ⟨v, hv, rfl⟩ := List.mem_map.mp hcandidate
  exact ⟨_, vote_eq catalog weighting _ table (has_kept hg v (List.mem_filter.mp hv).1)⟩

namespace Popularity

theorem bookmarkCount_eq (hg : g.WellFormed) (h : g.find? profile = some index) :
    bookmarkCount g profile
      = .ok (g.neighbours .target index Label.bookmarked).eraseDups.length := by
  obtain ⟨v, hv, -⟩ := hg.vertex_of_find? h
  refine Query.count_of_denote
    (Query.outcome_build_ofIds h [.into [Label.bookmarked], .distinct]) (List.cons_ne_nil _ _) ?_
  rw [denote_into hg ⟨v, hv⟩, List.foldl_cons, List.foldl_nil, items_distinct]

theorem exists_popular (hg : g.WellFormed) {catalog : Catalog} (hc : catalog.Describes g) :
    ∃ ranked, popular g catalog = .ok ranked := by
  have hcounted : ∀ e ∈ catalog.entries, ∃ counted : CatalogEntry × Nat,
      (do return (e, ← bookmarkCount g e.id)) = (.ok counted : Except GraphError _) := by
    intro e he
    obtain ⟨v, hv, -, hid, -⟩ := hc.entry_eq e he
    obtain ⟨place, hplace⟩ := hg.exists_find? (hid ▸ Graph.mem_ids hv)
    exact ⟨_, bind_eq_ok.mpr ⟨_, bookmarkCount_eq hg hplace, rfl⟩⟩
  obtain ⟨counted, hcounted⟩ := exists_mapM_eq_ok hcounted
  exact ⟨_, bind_eq_ok.mpr ⟨counted, hcounted, rfl⟩⟩

theorem exists_scoreProfile (hg : g.WellFormed) (catalog : Catalog) (ranked : List PopularListing)
    (topN : Nat) (h : g.find? profile = some index) :
    ∃ table, scoreProfile g catalog ranked topN profile = .ok table := by
  rw [scoreProfile, agenciesOf, targetIds_eq hg h, ok_bind, targetIds_eq hg h, ok_bind]
  exact ⟨_, rfl⟩

end Popularity

/-! ## Scoring every profile -/

/-- A strategy that prepares, and then scores every one of the given profiles. -/
def Strategy.Covers (strategy : Strategy) (profiles : List ElementId) : Prop :=
  ∃ score, strategy.initiate = .ok (fun tally ↦ (.ok (), tally.fill score profiles)) ∧
    ∀ profile ∈ profiles, ∃ table, score profile = .ok table

theorem Domain.profileIds_eq_idsWithLabel (hg : g.WellFormed)
    (hsize : g.vertices.size < Graph.arenaCapacity) :
    profileIds g = .ok (g.idsWithLabel Label.profile) := by
  rw [profileIds_eq hg, Graph.filter_labelAt_vertexIndices hg.vertices_le,
    Graph.map_idAt_verticesWithLabel hg.vertices_le, Graph.listed_of_lt (g.length_rows ▸ hsize),
    Graph.idsWithLabel]

theorem Graph.exists_find?_idsWithLabel (hg : g.WellFormed) {label : String}
    (h : profile ∈ g.idsWithLabel label) :
    ∃ index, g.find? profile = some index :=
  hg.exists_find? ((List.filter_sublist.map _).subset h)

theorem Collaborative.covers_strategy (hg : g.WellFormed)
    (hsize : g.vertices.size < Graph.arenaCapacity) (config : Config) :
    (strategy ⟨g, config⟩).Covers (g.idsWithLabel Label.profile) := by
  obtain ⟨catalog, hcatalog⟩ := Catalog.exists_build hg config.respectVisibility
  refine ⟨scoreProfile g catalog config.weighting, ?_, fun profile hprofile ↦ ?_⟩
  · simp only [strategy, profileIds_eq_idsWithLabel hg hsize, ok_bind, hcatalog]
    rfl
  · obtain ⟨index, hindex⟩ := Graph.exists_find?_idsWithLabel hg hprofile
    exact exists_scoreProfile hg catalog config.weighting hindex

theorem Popularity.covers_strategy (hg : g.WellFormed)
    (hsize : g.vertices.size < Graph.arenaCapacity) (config : Config) :
    (strategy ⟨g, config⟩).Covers (g.idsWithLabel Label.profile) := by
  obtain ⟨catalog, hcatalog⟩ := Catalog.exists_build hg config.respectVisibility
  obtain ⟨ranked, hranked⟩ := exists_popular hg (Catalog.describes_of_build hg hcatalog).1
  refine ⟨scoreProfile g catalog ranked config.topN.toNat, ?_, fun profile hprofile ↦ ?_⟩
  · simp only [strategy, profileIds_eq_idsWithLabel hg hsize, ok_bind, hcatalog, hranked]
    rfl
  · obtain ⟨index, hindex⟩ := Graph.exists_find?_idsWithLabel hg hprofile
    exact exists_scoreProfile hg catalog ranked config.topN.toNat hindex

theorem Tally.fill_of_ok {score : ElementId → Except GraphError ScoreTable}
    {profiles : List ElementId} (hscore : ∀ profile ∈ profiles, ∃ table, score profile = .ok table)
    (t : Tally) (hnodup : (t.scores.keys ++ profiles).Nodup) :
    (t.fill score profiles).scores.keys = t.scores.keys ++ profiles ∧
      (t.fill score profiles).failures = t.failures := by
  induction profiles generalizing t with
  | nil => exact ⟨(List.append_nil _).symm, rfl⟩
  | cons profile rest ih =>
    obtain ⟨table, htable⟩ := hscore profile List.mem_cons_self
    -- a profile that the tally has not met takes the next place in it
    have hnew : profile ∉ t.scores.keys := fun hmem ↦
      List.disjoint_of_nodup_append hnodup hmem List.mem_cons_self
    have hkeys : (t.assign profile table).scores.keys = t.scores.keys ++ [profile] := by
      rw [assign, ProfileScores.entry, Table.keys_update, if_neg hnew]
    have hfill : t.fill score (profile :: rest) = (t.assign profile table).fill score rest := by
      rw [fill, List.foldl_cons, htable]
      rfl
    rw [hfill, List.append_cons, ← hkeys]
    exact ih (fun other hother ↦ hscore other (List.mem_cons_of_mem profile hother)) _
      (by rwa [hkeys, ← List.append_cons])

/-! ## Runs -/

namespace Session

/-- What a run that processes the given profiles and fails on none of them leaves behind. -/
structure Completes (profiles : List ElementId) (summary : RunSummary) (t : Session)
    (store : Store) : Prop where
  /-- No profile has failed. -/
  failedProfiles_eq : summary.failedProfiles = 0
  /-- Every profile is counted. -/
  profiles_eq : summary.profiles = profiles.length
  /-- Every profile has one ranked list, in their order. -/
  map_profile_ranked : t.ranked.map (·.profile) = profiles
  /-- Every ranked list is stored. -/
  stored : ∀ list ∈ t.ranked, store.recommendationsFor list.profile = list.listings

theorem failedProfiles_summary (s : Session) : s.summary.failedProfiles = s.tally.failures :=
  List.foldlRecOn (motive := fun summary : RunSummary ↦ summary.failedProfiles = s.tally.failures)
    s.ranked _ rfl fun _ h _ _ ↦ h

theorem completes_writes {t : Session} {profiles : List ElementId}
    (hkeys : t.tally.scores.keys = profiles) (hfailures : t.tally.failures = 0) (store : Store) :
    Completes profiles t.summary t (t.writes.foldl Store.apply store) where
  failedProfiles_eq := t.failedProfiles_summary.trans hfailures
  profiles_eq := by
    rw [t.counts_summary.profiles_eq, ← hkeys, ← t.map_profile_ranked, List.length_map]
  map_profile_ranked := t.map_profile_ranked.trans hkeys
  stored list hlist := by
    rw [recommendationsFor_writes, ranking?_eq_some.mpr hlist, Option.getD_some]

/-- A run of a strategy that covers profiles succeeds and hands over all its results. -/
theorem recommend_of_covers {s : Session} {profiles : List ElementId}
    (h : s.strategy.Covers profiles) (hnodup : profiles.Nodup) (store : Store) :
    ∃ summary t sink, s.recommend (.ofStore store none) = (.ok summary, t, sink) ∧
      Completes profiles summary t sink.store := by
  obtain ⟨score, hinitiate, hscore⟩ := h
  obtain ⟨hkeys, hfailures⟩ := Tally.fill_of_ok hscore .empty hnodup
  have hrun := recommend_of_scoring hinitiate rfl (.ofStore store none)
  rw [Sink.writeAll_open rfl] at hrun
  exact ⟨_, _, _, hrun, completes_writes hkeys hfailures store⟩

end Session

/-- **Totality.** On every graph that mutations lead to and whose arena of vertices is not full, and
with all settings, a run of either strategy of the library succeeds on a store that refuses nothing,
whatever the store held. It fails on no profile and counts every vertex with the label of profiles.
Its results are in the order of these vertices, and the store has each of them. -/
theorem Graph.Reachable.recommend_completes {g : Graph} (h : g.Reachable)
    (hsize : g.vertices.size < arenaCapacity) (config : Config) (s : Session)
    (hs : s.strategy = Collaborative.strategy ⟨g, config⟩ ∨
      s.strategy = Popularity.strategy ⟨g, config⟩) (store : Store) :
    ∃ summary t sink, s.recommend (.ofStore store none) = (.ok summary, t, sink) ∧
      Session.Completes (g.idsWithLabel Label.profile) summary t sink.store := by
  have hcovers : s.strategy.Covers (g.idsWithLabel Label.profile) := by
    rcases hs with hs | hs
    · exact hs ▸ Collaborative.covers_strategy h.wellFormed hsize config
    · exact hs ▸ Popularity.covers_strategy h.wellFormed hsize config
  exact Session.recommend_of_covers hcovers (nodup_idsWithLabel h.wellFormed _) store

/-- A graph that no tables describe: a profile with a number for an id, another one whose id is the
text of that number, a bookmark of a profile and one of neither a profile nor a listing, and a
listing with a text for a flag that keeps itself, keeps a profile and is its own agency. -/
def Graph.wild : Graph :=
  let g := (empty.addVertex Label.profile .empty none).graph
  let g := (g.addVertex Label.listing (.ofList [("is_enabled", .text "no")]) none).graph
  let g := (g.addVertex Label.profile .empty (some (.name "1"))).graph
  let g := (g.addVertex "spectator" .empty (some (.name ""))).graph
  let g := (g.addEdge Label.bookmarked ⟨0⟩ ⟨2⟩ .empty).graph
  let g := (g.addEdge Label.bookmarked ⟨0⟩ ⟨3⟩ .empty).graph
  let g := (g.addEdge Label.bookmarked ⟨1⟩ ⟨1⟩ .empty).graph
  let g := (g.addEdge Label.bookmarked ⟨1⟩ ⟨2⟩ .empty).graph
  (g.addEdge Label.inAgency ⟨1⟩ ⟨1⟩ .empty).graph

theorem Graph.reachable_wild : wild.Reachable :=
  ((((((((Reachable.empty.addVertex ..).addVertex ..).addVertex ..).addVertex ..).addEdge
    ..).addEdge ..).addEdge ..).addEdge ..).addEdge ..

theorem Graph.recommend_completes_wild :
    let store := Store.empty.insert (.name "1") ⟨.name "gone", .one⟩
    let profiles : List ElementId := [.number 1, .name "1"]
    let similar := Session.start (Collaborative.strategy ⟨wild, {}⟩) {}
    let popular := Session.start (Popularity.strategy ⟨wild, {}⟩) {}
    (∃ summary t sink, similar.recommend (.ofStore store none) = (.ok summary, t, sink) ∧
      Session.Completes profiles summary t sink.store ∧
      sink.store.recommendationsFor (.number 1) = [⟨.number 2, .one⟩] ∧
      sink.store.recommendationsFor (.name "1") = []) ∧
    ∃ summary t sink, popular.recommend (.ofStore store none) = (.ok summary, t, sink) ∧
      Session.Completes profiles summary t sink.store ∧
      sink.store.recommendationsFor (.name "1") = [⟨.number 2, .one⟩] := by
  intro store profiles similar popular
  have hprofiles : wild.idsWithLabel Label.profile = profiles := by decide +kernel
  have hsimilar : (similar.recommend (.ofStore store none)).2.2.store.recommendationsFor (.number 1)
      = [⟨.number 2, .one⟩] := by decide +kernel
  have hcleared : (similar.recommend (.ofStore store none)).2.2.store.recommendationsFor (.name "1")
      = [] := by decide +kernel
  have hpopular : (popular.recommend (.ofStore store none)).2.2.store.recommendationsFor (.name "1")
      = [⟨.number 2, .one⟩] := by decide +kernel
  obtain ⟨summary, t, sink, hrun, hcompletes⟩ :=
    reachable_wild.recommend_completes (by decide +kernel) {} similar (.inl rfl) store
  obtain ⟨summary', t', sink', hrun', hcompletes'⟩ :=
    reachable_wild.recommend_completes (by decide +kernel) {} popular (.inr rfl) store
  rw [hrun] at hsimilar hcleared
  rw [hrun'] at hpopular
  exact ⟨⟨summary, t, sink, hrun, hprofiles ▸ hcompletes, hsimilar, hcleared⟩,
    summary', t', sink', hrun', hprofiles ▸ hcompletes', hpopular⟩

end BookmarkGraph
