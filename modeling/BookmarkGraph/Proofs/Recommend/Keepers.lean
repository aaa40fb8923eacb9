import BookmarkGraph.Proofs.Recommend.Evidence
import BookmarkGraph.Proofs.Recommend.Ranking
import Mathlib.Data.Set.Card

/-!
# Popularity ranks by keepers

Popularity sorts the listings once by the number of those that keep them, and then scans this list
for each profile, passing over what the profile keeps or may not see, until enough is found; the
little table that results is ranked again. `Graph.Reachable.popularity_ranks` says that all of this
comes to a plain ranking: the profile gets the first of everything that it may be offered, ordered
by the number of keepers and then by the order of insertion.

What may be offered is said here on vertices and edges: `Graph.Linked`, `Graph.Visible` and
`Graph.keeperCount`, a number of elements of a set. The evidence of a graph says the same on ids.
A sorted list stays sorted when it is filtered and cut, so neither the scan nor the second sorting
can change the order; that the scan stops early is harmless because no listing stands in it twice.
-/

namespace BookmarkGraph

open Domain

variable {g : Graph} {p l : VertexIndex} {v w : Vertex}

namespace Graph

/-! ## Vertices and edges -/

/-- An edge of the label leads from the one vertex to the other. -/
def Linked (g : Graph) (label : String) (source target : VertexIndex) : Prop :=
  ∃ e edge, g.edge e = .ok edge ∧ edge.source = source ∧ edge.label = label ∧
    edge.target = target

/-- How many vertices keep a vertex, parallel bookmarks counted once. -/
noncomputable def keeperCount (g : Graph) (listing : VertexIndex) : Nat :=
  {keeper | g.Linked Label.bookmarked keeper listing}.ncard

/-- A listing that a profile may see: where flags are respected it must be recommendable and, if it
is private, in an agency of the profile. -/
def Visible (g : Graph) (respect : Bool) (profile listing : VertexIndex) : Prop :=
  ∃ w, g.vertex listing = .ok w ∧ w.label = Label.listing ∧
    (respect = true → w.isRecommendable = true ∧
      (w.flag "is_private" false = true →
        ∃ a, g.Linked Label.inAgency profile a ∧ g.Linked Label.inAgency listing a))

theorem mem_neighbours_source (hg : g.WellFormed) {label : String} :
    l ∈ g.neighbours .source p label ↔ g.Linked label p l :=
  mem_neighbours hg

theorem mem_neighbours_target (hg : g.WellFormed) {label : String} :
    l ∈ g.neighbours .target p label ↔ g.Linked label l p := by
  rw [mem_neighbours hg]
  constructor <;> rintro ⟨e, edge, hedge, hend, hlabel, hother⟩ <;>
    exact ⟨e, edge, hedge, hother, hlabel, hend⟩

theorem length_le_of_nodup {vs : List VertexIndex} (h : vs.Nodup) : vs.length ≤ arenaCapacity := by
  have hinj : Function.Injective fun index : VertexIndex ↦ index.position.toNat := by
    rintro ⟨i⟩ ⟨j⟩ heq
    exact congrArg VertexIndex.mk (UInt32.toNat_inj.mp heq)
  have hrange : vs.map (fun index ↦ index.position.toNat) ⊆ List.range arenaCapacity := by
    intro i hi
    obtain ⟨index, -, rfl⟩ := List.mem_map.mp hi
    exact List.mem_range.mpr index.position.toNat_lt
  have hle := (List.subperm_of_subset (h.map hinj) hrange).length_le
  rwa [List.length_map, List.length_range] at hle

theorem idAt_mem_map (hg : g.WellFormed) {vs : List VertexIndex} (hvs : ∀ i ∈ vs, g.Has i)
    (hl : g.Has l) : g.idAt l ∈ vs.map g.idAt ↔ l ∈ vs := by
  refine ⟨fun hmem ↦ ?_, List.mem_map_of_mem⟩
  obtain ⟨i, hi, heq⟩ := List.mem_map.mp hmem
  obtain ⟨u, hu⟩ := hvs i hi
  obtain ⟨w, hw⟩ := hl
  rw [idAt_eq hu, idAt_eq hw] at heq
  rwa [← hg.index_inj hu hw heq]

end Graph

theorem ncard_setOf_mem {α : Type} [DecidableEq α] (xs : List α) :
    {x | x ∈ xs}.ncard = xs.eraseDups.length := by
  have hset : {x | x ∈ xs} = ↑xs.eraseDups.toFinset := by
    ext x
    simp
  rw [hset, Set.ncard_coe_finset, List.toFinset_card_of_nodup (nodup_eraseDups xs)]

namespace Graph

/-! ## The evidence, vertex by vertex -/

theorem mem_kept_iff (hg : g.WellFormed) (hv : g.vertex p = .ok v)
    (hw : g.vertex l = .ok w) : w.id ∈ g.evidence.kept v.id ↔ g.Linked Label.bookmarked p l := by
  rw [← map_idAt_kept hg hv, ← idAt_eq hw,
    idAt_mem_map hg (fun i hi ↦ vertex_of_mem_neighbours hg hi) ⟨w, hw⟩,
    mem_neighbours_source hg]

theorem keeperCount_eq_length (hg : g.WellFormed) (l : VertexIndex) :
    g.keeperCount l = (g.neighbours .target l Label.bookmarked).eraseDups.length := by
  have hkeepers : {keeper | g.Linked Label.bookmarked keeper l}
      = {keeper | keeper ∈ g.neighbours .target l Label.bookmarked} :=
    Set.ext fun _ ↦ (mem_neighbours_target hg).symm
  rw [keeperCount, hkeepers, ncard_setOf_mem]

theorem keeperCount_lt (hg : g.WellFormed) (l : VertexIndex) : g.keeperCount l < 2 ^ 53 := by
  rw [keeperCount_eq_length hg]
  exact Nat.lt_of_le_of_lt (length_le_of_nodup (nodup_eraseDups _)) (by decide)

theorem keeperCount_pos (hg : g.WellFormed) :
    0 < g.keeperCount l ↔ ∃ keeper, g.Linked Label.bookmarked keeper l := by
  rw [keeperCount_eq_length hg, List.length_pos_iff_exists_mem]
  simp only [List.mem_eraseDups, mem_neighbours_target hg]

theorem evidence_keeperCount (hg : g.WellFormed)
    (hw : g.vertex l = .ok w) : g.evidence.keeperCount w.id = g.keeperCount l := by
  rw [keeperCount_eq_length hg, Evidence.keeperCount, ← map_idAt_keepers hg hw,
    ← eraseDups_map_idAt hg fun i hi ↦ vertex_of_mem_neighbours hg hi, List.length_map]

theorem find?_listings (hg : g.WellFormed) (hsize : g.vertices.size < arenaCapacity)
    (hw : g.vertex l = .ok w) :
    (g.evidence.listings.find? fun facts ↦ facts.id = w.id)
      = if w.label = Label.listing then some w.row.facts else none := by
  have hlistings : g.evidence.listings
      = (g.rows.filter fun row ↦ row.label = Label.listing).map Row.facts := by
    change ((listed g.rows).filter _).map Row.facts = _
    rw [listed_of_lt (g.length_rows ▸ hsize)]
  have hsame : ∀ row ∈ g.rows, row.id = w.id → row = w.row := fun row hrow hid ↦
    List.inj_on_of_nodup_map hg.nodup_ids hrow (row_mem hw) hid
  cases hfind : g.evidence.listings.find? fun facts ↦ facts.id = w.id with
  | none =>
    rw [List.find?_eq_none, hlistings] at hfind
    refine (if_neg fun hlabel ↦ ?_).symm
    have hmem : w.row ∈ g.rows.filter fun row ↦ row.label = Label.listing :=
      List.mem_filter.mpr ⟨row_mem hw, decide_eq_true hlabel⟩
    exact hfind w.row.facts (List.mem_map_of_mem hmem) (decide_eq_true rfl)
  | some facts =>
    have hmem := List.mem_of_find?_eq_some hfind
    rw [hlistings] at hmem
    obtain ⟨row, hrow, rfl⟩ := List.mem_map.mp hmem
    obtain ⟨hrow, hlabel⟩ := List.mem_filter.mp hrow
    have hid := List.find?_some hfind
    obtain rfl := hsame row hrow (of_decide_eq_true hid)
    exact (if_pos (of_decide_eq_true hlabel)).symm

/-- The agencies of a listing and of a profile meet when both are linked to one. -/
theorem agencies_any_iff (hg : g.WellFormed) (hv : g.vertex p = .ok v)
    (hw : g.vertex l = .ok w) :
    ((g.evidence.agencies w.id).any fun a ↦ (g.evidence.agencies v.id).contains a) = true ↔
      ∃ a, g.Linked Label.inAgency p a ∧ g.Linked Label.inAgency l a := by
  have hhas : ∀ {i : VertexIndex}, ∀ a ∈ g.neighbours .source i Label.inAgency, g.Has a :=
    fun a ha ↦ vertex_of_mem_neighbours hg ha
  rw [List.any_eq_true, ← map_idAt_agencies hg hv, ← map_idAt_agencies hg hw]
  constructor
  · rintro ⟨id, hid, hcontains⟩
    obtain ⟨a, ha, rfl⟩ := List.mem_map.mp hid
    rw [List.contains_iff_mem, idAt_mem_map hg hhas (hhas a ha)] at hcontains
    exact ⟨a, (mem_neighbours_source hg).mp hcontains, (mem_neighbours_source hg).mp ha⟩
  · rintro ⟨a, hprofile, hlisting⟩
    exact ⟨g.idAt a, List.mem_map_of_mem ((mem_neighbours_source hg).mpr hlisting),
      List.contains_iff_mem.mpr (List.mem_map_of_mem ((mem_neighbours_source hg).mpr hprofile))⟩

theorem sees_iff (hg : g.WellFormed) (hsize : g.vertices.size < arenaCapacity)
    (hv : g.vertex p = .ok v) (hw : g.vertex l = .ok w) {respect : Bool} :
    g.evidence.sees respect v.id w.id = true ↔ g.Visible respect p l := by
  have hshared := agencies_any_iff hg hv hw
  rw [Evidence.sees, find?_listings hg hsize hw, Visible]
  constructor
  · intro h
    split at h
    · rename_i hlabel
      refine ⟨w, hw, hlabel, ?_⟩
      rintro rfl
      rw [Option.any_some, Bool.not_true, Bool.false_or, Bool.and_eq_true, Bool.or_eq_true,
        hshared, Bool.not_eq_true'] at h
      exact ⟨h.1, fun hflag ↦ h.2.resolve_left fun hpublic ↦
        Bool.false_ne_true (hpublic.symm.trans hflag)⟩
    · cases h
  · rintro ⟨w', hw', hlabel, h⟩
    obtain rfl := Except.ok.inj (hw.symm.trans hw')
    rw [if_pos hlabel, Option.any_some]
    cases respect with
    | false => rfl
    | true =>
      obtain ⟨hrecommendable, hprivate⟩ := h rfl
      rw [Bool.not_true, Bool.false_or, Bool.and_eq_true, Bool.or_eq_true, hshared,
        Bool.not_eq_true']
      refine ⟨hrecommendable, ?_⟩
      cases hflag : w.flag "is_private" false with
      | false => exact .inl hflag
      | true => exact .inr (hprivate hflag)

/-! ## The order of insertion -/

theorem map_id_listings (hsize : g.vertices.size < arenaCapacity) :
    g.evidence.listings.map (·.id) = (g.verticesWithLabel Label.listing).map g.idAt := by
  rw [map_idAt_verticesWithLabel hsize.le]
  exact List.map_map

end Graph

/-! ## Popular listings -/

/-- Whether the scan for a profile goes past an entry: the profile keeps the listing itself, or it
may not see it. -/
def Evidence.passes (e : Evidence) (respect : Bool) (profile : ElementId) (entry : ScoredListing) :
    Bool :=
  (e.kept profile).contains entry.listing || !e.sees respect profile entry.listing

namespace Evidence

theorem pairwise_popular (e : Evidence) :
    e.popular.Pairwise fun a b ↦ ScoreTable.rankedBefore a b = true :=
  List.pairwise_mergeSort ScoreTable.rankedBefore_trans ScoreTable.rankedBefore_total _

theorem nodup_popular {e : Evidence} (h : (e.listings.map (·.id)).Nodup) :
    (e.popular.map (·.listing)).Nodup := by
  rw [popular, ((List.mergeSort_perm _ ScoreTable.rankedBefore).map _).nodup_iff, List.map_map]
  change (((e.listings.map (·.id)).filter _).map id).Nodup
  rw [List.map_id]
  exact h.filter _

/-- A profile is ranked the first of the popular listings that are not passed over. -/
theorem ranked_popularity {e : Evidence} (h : (e.listings.map (·.id)).Nodup) (config : Config)
    (profile : ElementId) :
    (e.popularity config profile).ranked config.topN.toNat
      = (e.popular.filter fun entry ↦ !e.passes config.respectVisibility profile entry).take
          config.topN.toNat :=
  ScoreTable.ranked_ofScan (e.passes config.respectVisibility profile) config.topN.toNat
    (nodup_popular h) e.pairwise_popular

end Evidence

namespace Graph

/-- A listing with the number of its keepers for a score. -/
noncomputable def popularEntry (g : Graph) (listing : VertexIndex) : ScoredListing :=
  ⟨g.idAt listing, .ofNat (g.keeperCount listing)⟩

/-- The listings that somebody keeps, by the number of keepers. -/
noncomputable def popular (g : Graph) : List VertexIndex :=
  ((g.verticesWithLabel Label.listing).filter fun l ↦ 0 < g.keeperCount l).mergeSort
    fun a b ↦ g.keeperCount b ≤ g.keeperCount a

theorem ranks_popular (hg : g.WellFormed) (hsize : g.vertices.size < arenaCapacity) :
    Ranks (fun l ↦ (∃ w, g.vertex l = .ok w ∧ w.label = Label.listing) ∧
        ∃ keeper, g.Linked Label.bookmarked keeper l)
      g.keeperCount (·.position < ·.position) g.popular := by
  have hbefore := (g.pairwise_verticesWithLabel Label.listing).filter fun l ↦
    decide (0 < g.keeperCount l)
  have hnodup := hbefore.imp fun {a b} hlt (heq : a = b) ↦ UInt32.lt_irrefl b.position (heq ▸ hlt)
  have hranks := ranks_mergeSort hnodup hbefore g.keeperCount
  refine ⟨fun l ↦ ?_, hranks.nodup, hranks.pairwise⟩
  rw [popular, hranks.mem_iff, List.mem_filter, mem_verticesWithLabel hsize, decide_eq_true_eq,
    keeperCount_pos hg]

theorem evidence_popular (hg : g.WellFormed)
    (hsize : g.vertices.size < arenaCapacity) :
    g.evidence.popular = g.popular.map g.popularEntry := by
  have hcount : ∀ l ∈ g.verticesWithLabel Label.listing,
      g.evidence.keeperCount (g.idAt l) = g.keeperCount l := by
    intro l hl
    obtain ⟨w, hw, -⟩ := (mem_verticesWithLabel hsize).mp hl
    rw [idAt_eq hw, evidence_keeperCount hg hw]
  have hkept : ((g.verticesWithLabel Label.listing).filter fun l ↦
        0 < g.evidence.keeperCount (g.idAt l))
      = (g.verticesWithLabel Label.listing).filter fun l ↦ 0 < g.keeperCount l :=
    List.filter_congr fun l hl ↦ by rw [hcount l hl]
  rw [Evidence.popular, map_id_listings hsize, List.filter_map, List.map_map]
  change (((g.verticesWithLabel Label.listing).filter fun l ↦
    0 < g.evidence.keeperCount (g.idAt l)).map _).mergeSort _ = _
  rw [hkept, popular, List.map_mergeSort]
  · refine congrArg (List.mergeSort · ScoreTable.rankedBefore)
      (List.map_congr_left fun l hl ↦ ?_)
    rw [Function.comp_apply, hcount l (List.mem_filter.mp hl).1, popularEntry]
  · intro a _ b _
    exact decide_eq_decide.mpr
      (Double.rank_ofNat_le (keeperCount_lt hg b) (keeperCount_lt hg a)).symm

/-- What popularity may offer to a profile. -/
def Offerable (g : Graph) (respect : Bool) (profile listing : VertexIndex) : Prop :=
  (∃ keeper, g.Linked Label.bookmarked keeper listing) ∧
    ¬g.Linked Label.bookmarked profile listing ∧ g.Visible respect profile listing

def offers (g : Graph) (respect : Bool) (profile : VertexIndex) : List VertexIndex :=
  (g.verticesWithLabel Label.listing).filter fun l ↦
    !(g.neighbours .target l Label.bookmarked).isEmpty
      && !(g.neighbours .source profile Label.bookmarked).contains l
      && g.evidence.sees respect (g.idAt profile) (g.idAt l)

theorem mem_offers (hg : g.WellFormed) (hsize : g.vertices.size < arenaCapacity)
    (hp : g.vertex p = .ok v) {respect : Bool} :
    l ∈ g.offers respect p ↔ g.Offerable respect p l := by
  have hkept : (g.neighbours .target l Label.bookmarked).isEmpty = false
      ↔ ∃ keeper, g.Linked Label.bookmarked keeper l := by
    rw [List.isEmpty_eq_false_iff_exists_mem]
    simp only [mem_neighbours_target hg]
  have hsees : ∀ w, g.vertex l = .ok w →
      (g.evidence.sees respect (g.idAt p) (g.idAt l) = true ↔ g.Visible respect p l) := by
    intro w hw
    rw [idAt_eq hp, idAt_eq hw, sees_iff hg hsize hp hw]
  rw [offers, List.mem_filter, mem_verticesWithLabel hsize, Bool.and_eq_true, Bool.and_eq_true,
    Bool.not_eq_true', Bool.not_eq_true', hkept, ← Bool.not_eq_true, List.contains_iff_mem,
    mem_neighbours_source hg, Offerable]
  constructor
  · rintro ⟨⟨w, hw, -⟩, ⟨hkept, hown⟩, hvisible⟩
    exact ⟨hkept, hown, (hsees w hw).mp hvisible⟩
  · rintro ⟨hkept, hown, hvisible⟩
    have ⟨w, hw, hlabel, _⟩ := hvisible
    exact ⟨⟨w, hw, hlabel⟩, ⟨hkept, hown⟩, (hsees w hw).mpr hvisible⟩

theorem passes_popularEntry (hg : g.WellFormed)
    (hsize : g.vertices.size < arenaCapacity) (hp : g.vertex p = .ok v) (hl : g.vertex l = .ok w)
    {respect : Bool} : g.evidence.passes respect v.id (g.popularEntry l) = false ↔
      ¬g.Linked Label.bookmarked p l ∧ g.Visible respect p l := by
  rw [Evidence.passes, popularEntry, idAt_eq hl, Bool.or_eq_false_iff, Bool.not_eq_false',
    sees_iff hg hsize hp hl, ← mem_kept_iff hg hp hl, List.contains_eq_mem,
    decide_eq_false_iff_not]

/-- The popular listings that the scan for a profile stops at. -/
noncomputable def scanned (g : Graph) (respect : Bool) (profile : ElementId) : List VertexIndex :=
  g.popular.filter fun l ↦ !g.evidence.passes respect profile (g.popularEntry l)

theorem ranks_scanned (hg : g.WellFormed)
    (hsize : g.vertices.size < arenaCapacity) (hp : g.vertex p = .ok v) (respect : Bool) :
    Ranks (g.Offerable respect p) g.keeperCount (·.position < ·.position)
      (g.scanned respect v.id) := by
  have hranks := (ranks_popular hg hsize).filter fun l ↦
    !g.evidence.passes respect v.id (g.popularEntry l)
  refine ⟨fun l ↦ ?_, hranks.nodup, hranks.pairwise⟩
  rw [scanned, hranks.mem_iff, Bool.not_eq_true']
  constructor
  · rintro ⟨⟨⟨w, hw, -⟩, hkept⟩, hpasses⟩
    exact ⟨hkept, (passes_popularEntry hg hsize hp hw).mp hpasses⟩
  · rintro ⟨hkept, hown, hvisible⟩
    have ⟨w, hw, hlabel, _⟩ := hvisible
    exact ⟨⟨⟨w, hw, hlabel⟩, hkept⟩,
      (passes_popularEntry hg hsize hp hw).mpr ⟨hown, hvisible⟩⟩

/-- A profile is ranked the first of what it may be offered. -/
theorem ranked_popularity (hg : g.WellFormed)
    (hsize : g.vertices.size < arenaCapacity) (config : Config) (profile : ElementId) :
    (g.evidence.popularity config profile).ranked config.topN.toNat
      = ((g.scanned config.respectVisibility profile).take config.topN.toNat).map
          g.popularEntry := by
  rw [Evidence.ranked_popularity (hg.nodup_ids.sublist g.listings_sublist),
    evidence_popular hg hsize, List.filter_map, List.map_take]
  rfl

end Graph

/-! ## Runs -/

/-- A run of a session on a store that refuses nothing succeeds, ranks the listings for a profile
and stores them. -/
def Session.Recommends (s : Session) (store : Store) (profile : ElementId)
    (listings : List ScoredListing) : Prop :=
  ∃ summary t sink, s.recommend (.ofStore store none) = (.ok summary, t, sink) ∧
    t.ranking? profile = some listings ∧ sink.store.recommendationsFor profile = listings

theorem Evidence.recommends_session (e : Evidence) (config : Config) (name : String)
    (store : Store) {profile : ElementId} (h : profile ∈ e.profiles) :
    (e.session config name).Recommends store profile
      ((e.table config name profile).ranked config.topN.toNat) := by
  have hranking := e.ranking?_finished config name profile
  rw [if_pos h] at hranking
  have hrun := e.recommend_session config name (.ofStore store none)
  rw [Sink.writeAll_open rfl] at hrun
  refine ⟨_, _, _, hrun, hranking, ?_⟩
  change (((e.finished config name).writes).foldl Store.apply store).recommendationsFor profile = _
  rw [Session.recommendationsFor_writes, hranking, Option.getD_some]

theorem Graph.id_mem_profiles (hsize : g.vertices.size < arenaCapacity) (hp : g.vertex p = .ok v)
    (hlabel : v.label = Label.profile) : v.id ∈ g.evidence.profiles := by
  have hrow : v.row ∈ (listed g.rows).filter (·.label = Label.profile) := by
    rw [listed_of_lt (g.length_rows ▸ hsize)]
    exact List.mem_filter.mpr ⟨row_mem hp, decide_eq_true hlabel⟩
  exact List.mem_map_of_mem (f := Row.id) hrow

/-- **Popularity is a ranking by keepers.** On a graph that mutations lead to and whose arena of
vertices is not full, a run of the strategy succeeds. It ranks and stores for a profile the first of
the listings that somebody else keeps, that the profile does not keep and that it may see: those
kept by more vertices first, and those kept by as many in the order of insertion, each with the
number of vertices that keep it. -/
theorem Graph.Reachable.popularity_ranks (h : g.Reachable)
    (hsize : g.vertices.size < arenaCapacity) (config : Config) (hp : g.vertex p = .ok v)
    (hlabel : v.label = Label.profile) (store : Store) :
    ∃ order, Ranks (g.Offerable config.respectVisibility p) g.keeperCount
        (·.position < ·.position) order ∧
      (∀ other, Ranks (g.Offerable config.respectVisibility p) g.keeperCount
        (·.position < ·.position) other → other = order) ∧
      (Session.start (Popularity.strategy ⟨g, config⟩) config).Recommends store v.id
        ((order.take config.topN.toNat).map g.popularEntry) := by
  have hother : Popularity.name ≠ Collaborative.name := by decide
  have hranks := ranks_scanned h.wellFormed hsize hp config.respectVisibility
  have hranked := ranked_popularity h.wellFormed hsize config v.id
  refine ⟨_, hranks, fun other hother ↦
    hranks.unique (fun _ _ hlt ↦ UInt32.lt_asymm hlt) hother, ?_⟩
  have hrecommends := g.evidence.recommends_session config Popularity.name store
    (g.id_mem_profiles hsize hp hlabel)
  rw [Evidence.table, if_neg hother, hranked] at hrecommends
  rw [h.start_popularity]
  exact hrecommends

/-- Three profiles and five listings. The first profile keeps the listing that most keep, the second
one keeps a listing twice, and one of the listings is private. -/
def Graph.bazaar : Graph :=
  let vertices := [(Label.profile, "ann", []), (Label.profile, "bob", []),
    (Label.profile, "cat", []), (Label.listing, "atlas", []), (Label.listing, "compass", []),
    (Label.listing, "lantern", [("is_private", .bool true)]), (Label.listing, "sextant", []),
    (Label.listing, "theodolite", [])]
  let bookmarks := [(0, 4), (1, 4), (1, 6), (1, 3), (1, 3), (1, 5), (1, 7), (2, 4), (2, 3), (2, 6),
    (2, 5)]
  let g := vertices.foldl (fun g (label, name, flags) ↦
    (g.addVertex label (.ofList flags) (some (.name name))).graph) .empty
  bookmarks.foldl (fun g (profile, listing) ↦
    (g.addEdge Label.bookmarked ⟨profile⟩ ⟨listing⟩ .empty).graph) g

theorem Graph.reachable_bazaar : bazaar.Reachable :=
  List.foldlRecOn (motive := Reachable) _ _
    (List.foldlRecOn (motive := Reachable) _ _ .empty fun _ h _ _ ↦ h.addVertex ..)
    fun _ h _ _ ↦ h.addEdge ..

/-- The listing that the profile keeps itself and the private one would come first. Of two listings
with two keepers each the one that was inserted earlier does. -/
theorem Graph.popularity_ranks_bazaar :
    let config : Config := { topN := 2 }
    (Session.start (Popularity.strategy ⟨bazaar, config⟩) config).Recommends .empty (.name "ann")
      [⟨.name "atlas", .ofNat 2⟩, ⟨.name "sextant", .ofNat 2⟩] := by
  intro config
  have hg := reachable_bazaar.wellFormed
  have hsize : bazaar.vertices.size < arenaCapacity := by decide +kernel
  have hann : (bazaar.vertex ⟨0⟩).map (fun v ↦ (v.id, v.label))
      = .ok (.name "ann", Label.profile) := by decide +kernel
  obtain ⟨v, hv, heq⟩ := map_eq_ok.mp hann
  obtain ⟨hid, hlabel⟩ := Prod.mk.inj heq
  have hoffers : bazaar.offers true ⟨0⟩ = [⟨3⟩, ⟨6⟩, ⟨7⟩] := by decide +kernel
  have hranks : Ranks (bazaar.Offerable true ⟨0⟩) bazaar.keeperCount (·.position < ·.position)
      [⟨3⟩, ⟨6⟩, ⟨7⟩] := by
    refine ⟨fun l ↦ ?_, by decide, ?_⟩
    · rw [← hoffers, mem_offers hg hsize hv]
    · simp only [keeperCount_eq_length hg]
      decide +kernel
  obtain ⟨order, -, hunique, hrecommends⟩ :=
    reachable_bazaar.popularity_ranks hsize config hv hlabel .empty
  rw [← hunique _ hranks, hid] at hrecommends
  have hentries : (([⟨3⟩, ⟨6⟩, ⟨7⟩] : List VertexIndex).take 2).map bazaar.popularEntry
      = [⟨.name "atlas", .ofNat 2⟩, ⟨.name "sextant", .ofNat 2⟩] := by
    have hentry : bazaar.popularEntry = fun l ↦
        ⟨bazaar.idAt l, .ofNat (bazaar.neighbours .target l Label.bookmarked).eraseDups.length⟩ :=
      funext fun l ↦ by rw [popularEntry, keeperCount_eq_length hg]
    rw [hentry]
    decide +kernel
  exact hentries ▸ hrecommends

end BookmarkGraph
