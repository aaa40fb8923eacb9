import BookmarkGraph.Proofs.Recommend.Visibility
import BookmarkGraph.Proofs.Recommend.Totality
import BookmarkGraph.Proofs.Repetitions
import Mathlib.Data.List.Find

/-!
# What the strategies read

A strategy reaches everything through places: of vertices in the arena, of edges in edge lists, of
listings in the catalog. Its answers name ids only. `Evidence` is what remains once all places are
gone: the profiles, the listings with their flags, who belongs to which agency and who keeps what.
Both strategies are functions of it, `Evidence.collaborative` and `Evidence.popularity`, and two
graphs with the same evidence cannot be told apart by their recommendations.

The links of the evidence stand in the order of the edges. This order is what decides between equal
scores, so it has to survive on the way from edge lists to ids: `Graph.map_idAt_neighbours` is the
reason that it does.
-/

namespace BookmarkGraph

open Domain

/-! ## Evidence -/

/-- What a listing says about itself. -/
structure ListingFacts where
  /-- The id of the listing. -/
  id : ElementId
  /-- Whether the listing is enabled, not deleted and approved. -/
  recommendable : Bool
  /-- Whether only profiles of the owning agencies see the listing. -/
  isPrivate : Bool
deriving DecidableEq

/-- What recommendations are made from. -/
@[ext]
structure Evidence where
  /-- The profiles, in the order of insertion. -/
  profiles : List ElementId
  /-- The listings, in the order of insertion. -/
  listings : List ListingFacts
  /-- Which agencies profiles and listings are in. -/
  memberships : List Link
  /-- Which listings are kept by whom. -/
  bookmarks : List Link
deriving DecidableEq

def Row.vertex (row : Row) : Vertex := ⟨row.id, row.label, row.properties, .empty, .empty⟩

/-- What the row of a listing says. -/
def Row.facts (row : Row) : ListingFacts :=
  ⟨row.id, row.vertex.isRecommendable, row.vertex.flag "is_private" false⟩

namespace Evidence

def of (rows : List Row) (links : List Link) : Evidence where
  profiles := ((Graph.listed rows).filter (·.label = Label.profile)).map (·.id)
  listings := ((Graph.listed rows).filter (·.label = Label.listing)).map Row.facts
  memberships := links.filter (·.label = Label.inAgency)
  bookmarks := links.filter (·.label = Label.bookmarked)

variable (e : Evidence)

/-- What is kept by a profile, once per bookmark. -/
def kept (profile : ElementId) : List ElementId := Link.across .source profile e.bookmarks

/-- By whom a listing is kept, once per bookmark. -/
def keepers (listing : ElementId) : List ElementId := Link.across .target listing e.bookmarks

def agencies (id : ElementId) : List ElementId := Link.across .source id e.memberships

/-- Whether a profile sees a listing, flags being respected or not. -/
def sees (respect : Bool) (profile listing : ElementId) : Bool :=
  (e.listings.find? (·.id = listing)).any fun facts ↦
    !respect || facts.recommendable &&
      (!facts.isPrivate || (e.agencies listing).any fun a ↦ (e.agencies profile).contains a)

/-- Those who keep something in common with a profile, in the order in which they are met. -/
def similar (profile : ElementId) : List ElementId :=
  ((e.kept profile).flatMap e.keepers).eraseDups.filter (· ∉ [profile])

/-- What others have to offer to a profile: a vote of everyone similar for each listing that the
profile does not keep. -/
def votes (profile : ElementId) : List ElementId :=
  (e.similar profile).flatMap fun other ↦ (e.kept other).eraseDups.filter (· ∉ e.kept profile)

def collaborative (config : Config) (profile : ElementId) : ScoreTable :=
  ((e.votes profile).filter (e.sees config.respectVisibility profile)).foldl
    (fun table listing ↦ table.add listing .one (config.weighting = .frequency)) .empty

/-- How many keep a listing. -/
def keeperCount (listing : ElementId) : Nat := (e.keepers listing).eraseDups.length

/-- The listings that somebody keeps, those kept by most first. -/
def popular : List ScoredListing :=
  (((e.listings.map (·.id)).filter (0 < e.keeperCount ·)).map fun listing ↦
    (⟨listing, .ofNat (e.keeperCount listing)⟩ : ScoredListing)).mergeSort ScoreTable.rankedBefore

def popularity (config : Config) (profile : ElementId) : ScoreTable :=
  e.popular.foldl (fun table entry ↦
    if config.topN.toNat ≤ table.size then table
    else if (e.kept profile).contains entry.listing
        || !e.sees config.respectVisibility profile entry.listing then table
    else table.add entry.listing entry.score false) .empty

def strategy (name : String) (table : ElementId → ScoreTable) : Strategy where
  name
  initiate := .ok fun tally ↦ (.ok (), tally.fill (fun profile ↦ .ok (table profile)) e.profiles)

end Evidence

def Graph.evidence (g : Graph) : Evidence := .of g.rows g.links

/-! ## The catalog -/

section Readings

variable {g : Graph} {profile : ElementId} {index : VertexIndex} {v : Vertex}

namespace Graph

theorem map_idAt_agencies (hg : g.WellFormed) (hv : g.vertex index = .ok v) :
    (g.neighbours .source index Label.inAgency).map g.idAt = g.evidence.agencies v.id :=
  map_idAt_neighbours hg hv .source Label.inAgency

theorem map_idAt_kept (hg : g.WellFormed) (hv : g.vertex index = .ok v) :
    (g.neighbours .source index Label.bookmarked).map g.idAt = g.evidence.kept v.id :=
  map_idAt_neighbours hg hv .source Label.bookmarked

theorem map_idAt_keepers (hg : g.WellFormed) (hv : g.vertex index = .ok v) :
    (g.neighbours .target index Label.bookmarked).map g.idAt = g.evidence.keepers v.id :=
  map_idAt_neighbours hg hv .target Label.bookmarked

theorem eraseDups_map_idAt (hg : g.WellFormed) {vs : List VertexIndex} (hvs : ∀ v ∈ vs, g.Has v) :
    vs.eraseDups.map g.idAt = (vs.map g.idAt).eraseDups := by
  refine (eraseDups_map fun i hi j hj heq ↦ ?_).symm
  obtain ⟨v, hv⟩ := hvs i hi
  obtain ⟨w, hw⟩ := hvs j hj
  rw [idAt_eq hv, idAt_eq hw] at heq
  exact hg.index_inj hv hw heq

end Graph

namespace Catalog

variable {respect : Bool} {c : Catalog}

theorem map_facts_entries (hg : g.WellFormed) (hc : build g respect = .ok c) :
    c.entries.map (fun e ↦ (⟨e.id, e.recommendable, e.isPrivate⟩ : ListingFacts))
      = g.evidence.listings := by
  obtain ⟨entries, hentries, h⟩ := bind_eq_ok.mp hc
  obtain rfl := Except.ok.inj h
  have hfacts : entries.map (fun e ↦ (⟨e.id, e.recommendable, e.isPrivate⟩ : ListingFacts))
      = (g.verticesWithLabel Label.listing).map fun index ↦ (g.rowAt index).facts := by
    refine map_of_mapM hentries fun index hindex e he ↦ ?_
    obtain ⟨v, hv⟩ := Graph.has_verticesWithLabel hg.vertices_le _ index hindex
    rw [entry_eq hg hv] at he
    rw [← Except.ok.inj he, Graph.rowAt_eq hv]
    rfl
  change _ = ((Graph.listed g.rows).filter (·.label = Label.listing)).map Row.facts
  rw [← Graph.map_rowAt_verticesWithLabel hg.vertices_le, List.map_map]
  exact hfacts

/-- Whether a vertex is visible is said by its id and the id of the profile. -/
theorem visibleTo_eq (hg : g.WellFormed) (hc : build g respect = .ok c)
    {place : VertexIndex} {w : Vertex} (hv : g.vertex index = .ok v)
    (hw : g.vertex place = .ok w) :
    c.visibleTo place ((g.neighbours .source index Label.inAgency).map g.idAt)
      = g.evidence.sees respect v.id w.id := by
  obtain ⟨hdescribes, hrespect⟩ := describes_of_build hg hc
  -- the entry of the vertex is the first entry with its id
  have hfind : (c.entries.find? fun e ↦ e.id = w.id) = c.entries.find? fun e ↦ e.index = place := by
    refine List.find?_congr fun e he ↦ ?_
    obtain ⟨u, hu, -, hid, -⟩ := hdescribes.entry_eq e he
    rw [decide_eq_decide, hid]
    refine ⟨hg.index_inj hu hw, fun heq ↦ ?_⟩
    rw [heq, hw] at hu
    rw [Except.ok.inj hu]
  rw [Evidence.sees, ← map_facts_entries hg hc, List.find?_map, visibleTo, find?]
  change _ = Option.any _ (Option.map _ (c.entries.find? fun e ↦ e.id = w.id))
  rw [hfind]
  cases hentry : c.entries.find? fun e ↦ e.index = place with
  | none => rfl
  | some e =>
    obtain rfl : e.index = place := by simpa using List.find?_some hentry
    obtain ⟨u, hu, -, -, -, -, hagencies⟩ :=
      hdescribes.entry_eq e (List.mem_of_find?_eq_some hentry)
    rw [Option.any_some, Option.map_some, Option.any_some, hagencies, hrespect,
      Graph.map_idAt_agencies hg hv, Graph.map_idAt_agencies hg hw]

end Catalog

/-! ## Collaborative filtering -/

namespace Collaborative

theorem map_idAt_kept_eraseDups (hg : g.WellFormed)
    (hv : g.vertex index = .ok v) :
    (kept g index).map g.idAt = (g.evidence.kept v.id).eraseDups := by
  rw [kept, Graph.eraseDups_map_idAt hg fun w hw ↦ Graph.vertex_of_mem_neighbours hg hw,
    Graph.map_idAt_kept hg hv]

theorem map_idAt_similar (hg : g.WellFormed) (hv : g.vertex index = .ok v) :
    (similar g index).map g.idAt = g.evidence.similar v.id := by
  have hkeepers : ((g.neighbours .source index Label.bookmarked).flatMap fun w ↦
      g.neighbours .target w Label.bookmarked).map g.idAt
      = (g.evidence.kept v.id).flatMap g.evidence.keepers := by
    rw [← Graph.map_idAt_kept hg hv, List.map_flatMap, List.flatMap_map]
    refine List.flatMap_congr fun w hw ↦ ?_
    obtain ⟨u, hu⟩ := Graph.vertex_of_mem_neighbours hg hw
    rw [Graph.map_idAt_keepers hg hu, Graph.idAt_eq hu]
  rw [Evidence.similar, ← hkeepers, ← Graph.eraseDups_map_idAt hg (Graph.has_neighbours hg),
    List.filter_map, similar, Graph.idAt_eq hv]
  rfl

/-- The scores of a profile are those that the evidence gives. -/
theorem scoreProfile_eq (hg : g.WellFormed) {config : Config}
    {catalog : Catalog} (hc : Catalog.build g config.respectVisibility = .ok catalog)
    (hprofile : profile ∈ g.ids) :
    scoreProfile g catalog config.weighting profile
      = .ok (g.evidence.collaborative config profile) := by
  obtain ⟨index, hfind⟩ := hg.exists_find? hprofile
  obtain ⟨v, hv, rfl⟩ := hg.vertex_of_find? hfind
  rw [scoreProfile, ownIds_eq hg hfind, ok_bind, agenciesOf, targetIds_eq hg hfind, ok_bind,
    similarIds_eq hg hfind, ok_bind, map_idAt_similar hg hv, Evidence.collaborative,
    Evidence.votes, List.foldl_filter, List.foldl_flatMap]
  refine foldlM_eq_ok_foldl (fun other hother table ↦ ?_) _
  -- what a similar profile keeps, by places for the query and by ids for the evidence
  rw [← map_idAt_similar hg hv] at hother
  obtain ⟨place, hplace, rfl⟩ := List.mem_map.mp hother
  obtain ⟨w, hw⟩ := has_similar hg place hplace
  have hagain := hg.find?_of_vertex hw
  have hown : ∀ id, id ∈ (kept g index).map g.idAt ↔ id ∈ g.evidence.kept v.id := by
    intro id
    rw [map_idAt_kept_eraseDups hg hv, List.mem_eraseDups]
  have hcandidates : ((kept g place).filter fun u ↦ g.idAt u ∉ (kept g index).map g.idAt).map g.idAt
      = (g.evidence.kept w.id).eraseDups.filter (· ∉ g.evidence.kept v.id) := by
    simp only [hown]
    rw [← map_idAt_kept_eraseDups hg hw, List.filter_map]
    rfl
  rw [Graph.idAt_eq hw, candidates_eq hg hagain, ok_bind, ← hcandidates, List.foldlM_map,
    List.foldl_map]
  refine foldlM_eq_ok_foldl (fun candidate hcandidate table ↦ ?_) table
  have hhas := has_kept hg candidate (List.mem_filter.mp hcandidate).1
  obtain ⟨u, hu⟩ := hhas
  rw [vote_eq catalog config.weighting _ table ⟨u, hu⟩, Catalog.visibleTo_eq hg hc hv hu,
    Graph.idAt_eq hu]

end Collaborative

/-! ## Popularity -/

namespace Popularity

theorem bookmarkCount_eq_keeperCount (hg : g.WellFormed)
    (hv : g.vertex index = .ok v) :
    bookmarkCount g v.id = .ok (g.evidence.keeperCount v.id) := by
  have hfind := hg.find?_of_vertex hv
  rw [bookmarkCount_eq hg hfind, Evidence.keeperCount, ← Graph.map_idAt_keepers hg hv,
    ← Graph.eraseDups_map_idAt hg fun w hw ↦ Graph.vertex_of_mem_neighbours hg hw,
    List.length_map]

theorem map_popular (hg : g.WellFormed) {respect : Bool} {catalog : Catalog}
    (hc : Catalog.build g respect = .ok catalog) {ranked : List PopularListing}
    (h : popular g catalog = .ok ranked) :
    ranked.map (fun listing ↦ (⟨listing.id, listing.score⟩ : ScoredListing))
      = g.evidence.popular := by
  obtain ⟨hdescribes, -⟩ := Catalog.describes_of_build hg hc
  have hcount : ∀ e ∈ catalog.entries, (do return (e, ← bookmarkCount g e.id))
      = (.ok (e, g.evidence.keeperCount e.id) : Except GraphError (CatalogEntry × Nat)) := by
    intro e he
    obtain ⟨v, hv, -, hid, -⟩ := hdescribes.entry_eq e he
    rw [hid, bookmarkCount_eq_keeperCount hg hv]
    rfl
  rw [popular, mapM_eq_ok_map hcount, ok_bind] at h
  have hsorted : ∀ listings : List PopularListing,
      (listings.mergeSort fun a b ↦ b.score.rank ≤ a.score.rank).map
          (fun listing ↦ (⟨listing.id, listing.score⟩ : ScoredListing))
        = (listings.map fun listing ↦ (⟨listing.id, listing.score⟩ : ScoredListing)).mergeSort
          ScoreTable.rankedBefore :=
    fun _ ↦ List.map_mergeSort fun _ _ _ _ ↦ rfl
  rw [← Except.ok.inj h, hsorted, Evidence.popular, ← Catalog.map_facts_entries hg hc]
  simp only [List.map_map, List.filter_map]
  rfl

/-- The scores of a profile are those that the evidence gives. -/
theorem scoreProfile_eq (hg : g.WellFormed) {config : Config}
    {catalog : Catalog} (hc : Catalog.build g config.respectVisibility = .ok catalog)
    {ranked : List PopularListing} (hranked : popular g catalog = .ok ranked)
    (hprofile : profile ∈ g.ids) :
    scoreProfile g catalog ranked config.topN.toNat profile
      = .ok (g.evidence.popularity config profile) := by
  obtain ⟨index, hfind⟩ := hg.exists_find? hprofile
  obtain ⟨v, hv, rfl⟩ := hg.vertex_of_find? hfind
  obtain ⟨hdescribes, -⟩ := Catalog.describes_of_build hg hc
  rw [scoreProfile, agenciesOf, targetIds_eq hg hfind, ok_bind, targetIds_eq hg hfind, ok_bind,
    Evidence.popularity, ← map_popular hg hc hranked, List.foldl_map,
    Graph.map_idAt_kept hg hv]
  refine congrArg Except.ok (List.foldl_ext _ _ _ fun table listing hlisting ↦ ?_)
  obtain ⟨e, he, hindex, hid⟩ := exists_entry_of_mem_popular hranked hlisting
  obtain ⟨w, hw, -, hwid, -⟩ := hdescribes.entry_eq e he
  rw [offer, hindex, Catalog.visibleTo_eq hg hc hv hw, hid, hwid]

end Popularity

end Readings

/-! ## The strategies -/

theorem Tally.fill_congr {score score' : ElementId → Except GraphError ScoreTable}
    {profiles : List ElementId} (h : ∀ profile ∈ profiles, score profile = score' profile)
    (t : Tally) : t.fill score profiles = t.fill score' profiles :=
  List.foldl_ext _ _ _ fun _ profile hprofile ↦ by rw [h profile hprofile]

theorem Evidence.strategy_of_scores {e : Evidence} {name : String}
    {score : ElementId → Except GraphError ScoreTable} {table : ElementId → ScoreTable}
    (h : ∀ profile ∈ e.profiles, score profile = .ok (table profile)) :
    ({ name, initiate := .ok fun tally ↦ (.ok (), tally.fill score e.profiles) } : Strategy)
      = e.strategy name table := by
  refine congrArg (Strategy.mk name · .idle) (congrArg Except.ok (funext fun tally ↦ ?_))
  rw [Tally.fill_congr h]

theorem Graph.profiles_sublist (g : Graph) : g.evidence.profiles.Sublist g.ids :=
  (List.filter_sublist.trans (listed_sublist g.rows)).map _

theorem Graph.listings_sublist (g : Graph) : (g.evidence.listings.map (·.id)).Sublist g.ids := by
  have hlistings : g.evidence.listings.map (·.id)
      = ((listed g.rows).filter (·.label = Label.listing)).map (·.id) := List.map_map
  rw [hlistings]
  exact (List.filter_sublist.trans (listed_sublist g.rows)).map _

namespace Graph.Reachable

variable {g : Graph}

theorem profileIds_eq (h : g.Reachable) : profileIds g = .ok g.evidence.profiles := by
  have hsize := h.wellFormed.vertices_le
  rw [Domain.profileIds_eq h.wellFormed, filter_labelAt_vertexIndices hsize,
    map_idAt_verticesWithLabel hsize]
  rfl

theorem mem_ids_of_mem_profiles {profile : ElementId} (h : profile ∈ g.evidence.profiles) :
    profile ∈ g.ids :=
  g.profiles_sublist.subset h

/-- **Collaborative filtering reads the evidence only.** On a graph that mutations lead to, the
strategy is a function of the evidence in the graph. -/
theorem collaborative_eq (h : g.Reachable) (config : Config) :
    Collaborative.strategy ⟨g, config⟩
      = g.evidence.strategy Collaborative.name (g.evidence.collaborative config) := by
  have hg := h.wellFormed
  obtain ⟨catalog, hcatalog⟩ := Catalog.exists_build hg config.respectVisibility
  simp only [Collaborative.strategy, h.profileIds_eq, ok_bind, hcatalog]
  exact Evidence.strategy_of_scores fun profile hprofile ↦
    Collaborative.scoreProfile_eq hg hcatalog (mem_ids_of_mem_profiles hprofile)

/-- **Popularity reads the evidence only.** -/
theorem popularity_eq (h : g.Reachable) (config : Config) :
    Popularity.strategy ⟨g, config⟩
      = g.evidence.strategy Popularity.name (g.evidence.popularity config) := by
  have hg := h.wellFormed
  obtain ⟨catalog, hcatalog⟩ := Catalog.exists_build hg config.respectVisibility
  obtain ⟨ranked, hranked⟩ :=
    Popularity.exists_popular hg (Catalog.describes_of_build hg hcatalog).1
  simp only [Popularity.strategy, h.profileIds_eq, ok_bind, hcatalog, hranked]
  exact Evidence.strategy_of_scores fun profile hprofile ↦
    Popularity.scoreProfile_eq hg hcatalog hranked (mem_ids_of_mem_profiles hprofile)

end Graph.Reachable

theorem Graph.Shows.evidence_eq {g : Graph} {rows : List Row} {links : List Link}
    (h : g.Shows rows links) : g.evidence = .of rows links := by
  rw [Graph.evidence, h.rows_eq, h.links_eq]

/-! ## Sessions -/

theorem Tally.get?_fill (table : ElementId → ScoreTable) (profiles : List ElementId)
    (t : Tally) (profile : ElementId) :
    (t.fill (fun p ↦ .ok (table p)) profiles).scores.get? profile
      = if profile ∈ profiles then some (table profile) else t.scores.get? profile := by
  induction profiles generalizing t with
  | nil => rfl
  | cons p rest ih =>
    have hfill : t.fill (fun p ↦ .ok (table p)) (p :: rest)
        = (t.assign p (table p)).fill (fun p ↦ .ok (table p)) rest := rfl
    have hassign : (t.assign p (table p)).scores.get? profile
        = if profile = p then some (table p) else t.scores.get? profile := by
      simp only [assign, ProfileScores.entry, Table.get?_update, beq_iff_eq]
    rw [hfill, ih, hassign]
    by_cases hrest : profile ∈ rest
    · rw [if_pos hrest, if_pos (List.mem_cons_of_mem p hrest)]
    · by_cases hp : profile = p
      · rw [if_neg hrest, if_pos hp, if_pos (hp ▸ List.mem_cons_self), hp]
      · rw [if_neg hrest, if_neg hp, if_neg fun h ↦ (List.mem_cons.mp h).elim hp hrest]

namespace Evidence

variable (e : Evidence) (config : Config) (name : String)

/-- The scores that a strategy of the library gives. -/
def table : ElementId → ScoreTable :=
  if name = Collaborative.name then e.collaborative config else e.popularity config

/-- A session of a strategy of the library before its first run. -/
def session : Session := .start (e.strategy name (e.table config name)) config

/-- A session of a strategy of the library after a run. -/
def finished : Session where
  strategy := e.strategy name (e.table config name)
  topN := config.topN.toNat
  scoring tally :=
    (.ok (), tally.fill (fun profile ↦ .ok (e.table config name profile)) e.profiles)
  tally := Tally.empty.fill (fun profile ↦ .ok (e.table config name profile)) e.profiles

/-- The sessions of a batch of strategies of the library after their runs. -/
def sessions : List Session := config.strategies.map (e.finished config)

theorem recommend_session (sink : Sink) :
    (e.session config name).recommend sink
      = ((sink.writeAll (e.finished config name).writes).1.map fun _ ↦
          (e.finished config name).summary,
        e.finished config name, (sink.writeAll (e.finished config name).writes).2) := by
  have hinitiate : (e.session config name).strategy.initiate
      = .ok (e.finished config name).scoring := rfl
  have hscore : (e.finished config name).scoring .empty
      = (.ok (), (e.finished config name).tally) := rfl
  exact Session.recommend_of_scoring hinitiate hscore sink

theorem evaluate_session : (e.session config name).evaluate = .ok (e.finished config name) :=
  Session.evaluate_of_scoring rfl rfl

/-- A session processes every profile of the evidence and no others. -/
theorem ranking?_finished (profile : ElementId) :
    (e.finished config name).ranking? profile
      = if profile ∈ e.profiles then some ((e.table config name profile).ranked config.topN.toNat)
        else none := by
  rw [Session.ranking?, finished, Tally.get?_fill]
  by_cases h : profile ∈ e.profiles
  · rw [if_pos h, if_pos h, Option.map_some]
  · rw [if_neg h, if_neg h]
    rfl

end Evidence

/-! ## Batches -/

theorem Registry.names_builtins : builtins.names = [Collaborative.name, Popularity.name] := by
  rw [names, constructors_builtins]
  rfl

theorem Graph.Reachable.start_collaborative {g : Graph} (h : g.Reachable) (config : Config) :
    Session.start (Collaborative.strategy ⟨g, config⟩) config
      = g.evidence.session config Collaborative.name := by
  rw [h.collaborative_eq, Evidence.session, Evidence.table, if_pos rfl]

theorem Graph.Reachable.start_popularity {g : Graph} (h : g.Reachable) (config : Config) :
    Session.start (Popularity.strategy ⟨g, config⟩) config
      = g.evidence.session config Popularity.name := by
  have hother : Popularity.name ≠ Collaborative.name := by decide
  rw [h.popularity_eq, Evidence.session, Evidence.table, if_neg hother]

/-- On graphs with the same evidence the library makes the same sessions. -/
theorem Registry.create_builtins_of_mem {g : Graph} (h : g.Reachable) (config : Config)
    {name : String} (hname : name ∈ builtins.names) :
    builtins.create name ⟨g, config⟩ = .ok (g.evidence.session config name) := by
  rw [names_builtins, List.mem_cons, List.mem_singleton] at hname
  rw [create_builtins_eq]
  rcases hname with rfl | rfl
  · rw [if_pos rfl, h.start_collaborative]
  · have hother : Popularity.name ≠ Collaborative.name := by decide
    rw [if_neg hother, if_pos rfl, h.start_popularity]

theorem Registry.contains_of_mem_names {registry : Registry} {name : String}
    (h : name ∈ registry.names) : registry.contains name = true := by
  obtain ⟨entry, hentry, rfl⟩ := List.mem_map.mp h
  rw [contains, find?, Option.isSome_iff_ne_none, ne_eq, List.lookup_eq_none_iff]
  exact fun hnone ↦ absurd (hnone entry hentry) (by simp)

/-- **A batch reads the evidence only.** The summaries of a batch of strategies of the library and
the writes that it asks for are those of the sessions on the evidence. -/
theorem Batch.run_builtins {config : Config} {s : Snapshot} {g : Graph} {build : BuildReport}
    (hbuild : s.buildWithReport = .ok (g, build))
    (hnames : ∀ name ∈ config.strategies, name ∈ Registry.builtins.names) (sink : Sink) :
    run .builtins config s sink
      = ((sink.writeAll (writes (g.evidence.sessions config))).1.map fun _ ↦
          ⟨build, (g.evidence.sessions config).map Session.summary⟩,
        (sink.writeAll (writes (g.evidence.sessions config))).2) := by
  have hknown : ∀ name ∈ config.strategies, Registry.builtins.contains name = true :=
    fun name hname ↦ Registry.contains_of_mem_names (hnames name hname)
  have hevaluate : evaluate .builtins ⟨g, config⟩ config.strategies
      = .ok (g.evidence.sessions config) := by
    refine mapM_eq_ok_map fun name hname ↦ ?_
    rw [Registry.create_builtins_of_mem (Snapshot.shows_of_build hbuild).reachable config
      (hnames name hname), ok_bind, Evidence.evaluate_session]
  rw [run_of_build hknown hbuild, runAll_of_evaluate hevaluate]
  rcases sink.writeAll (writes (g.evidence.sessions config)) with ⟨e | ⟨⟩, sink'⟩ <;> rfl

end BookmarkGraph
