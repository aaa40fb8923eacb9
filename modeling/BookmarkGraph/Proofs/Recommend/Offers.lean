import BookmarkGraph.Recommend.Popularity
import BookmarkGraph.Proofs.Query

/-!
# What the strategies offer

Both strategies decide whether a profile is offered a listing by the same three facts: the listing
is in the catalog, it is visible to the agencies of the profile, and the profile does not keep it.
They arrive there by different ways, one through what similar profiles keep, the other through the
catalog ordered by popularity. `Catalog.Offers` states the three facts on the graph, and the two
theorems `Collaborative.offers_of_scoreProfile` and `Popularity.offers_of_scoreProfile` say that no
score is given for anything else.
-/

namespace BookmarkGraph

open Domain

/-! ## Tables of scores -/

theorem ScoreTable.mem_keys_add {t : ScoreTable} {listing other : ElementId} {score : Double}
    {accumulate : Bool} (h : other ∈ (t.add listing score accumulate).keys) :
    other ∈ t.keys ∨ other = listing := by
  rw [ScoreTable.add, Table.keys_update] at h
  split at h
  · exact .inl h
  · exact (List.mem_append.mp h).imp_right List.mem_singleton.mp

/-! ## The catalog -/

namespace Catalog

variable {g : Graph}

theorem entry_eq (hg : g.WellFormed) {index : VertexIndex} {v : Vertex}
    (hv : g.vertex index = .ok v) :
    entry g index = .ok ⟨index, v.id, v.isRecommendable, v.flag "is_private" false,
      (g.neighbours .source index Label.inAgency).map g.idAt⟩ := by
  have hedges : g.edgesOf index .outgoing [Label.inAgency]
      = .ok ((v.edgesAt .source).select [Label.inAgency]) := by
    rw [Graph.edgesOf, hv]
    rfl
  have htargets : ((v.edgesAt .source).select [Label.inAgency]).mapM (fun edge ↦ do
      let target ← g.vertex (← g.edge edge).target
      return target.id) = .ok ((g.neighbours .source index Label.inAgency).map g.idAt) := by
    rw [get_edgesAt hg hv, List.mapM_map, Graph.neighbours, List.map_map]
    refine mapM_eq_ok_map fun e he ↦ ?_
    obtain ⟨hedge, -⟩ := (Graph.mem_incident hg.edges_le).mp (List.mem_filter.mp he).1
    obtain ⟨w, hw⟩ := hg.exists_vertexAt hedge .target
    change g.vertex e.2.target = .ok w at hw
    rw [Function.comp_apply, hedge, ok_bind, hw, ok_bind]
    exact congrArg Except.ok (Graph.idAt_eq hw).symm
  rw [entry, hv, ok_bind, hedges, ok_bind, htargets]
  rfl

/-- A catalog describes listings of its graph. -/
structure Describes (c : Catalog) (g : Graph) : Prop where
  /-- Every entry is what the graph says about a vertex with the label of listings. -/
  entry_eq : ∀ e ∈ c.entries, ∃ v, g.vertex e.index = .ok v ∧ v.label = Label.listing ∧
    e.id = v.id ∧ e.recommendable = v.isRecommendable ∧ e.isPrivate = v.flag "is_private" false ∧
    e.agencies = (g.neighbours .source e.index Label.inAgency).map g.idAt

theorem describes_of_build (hg : g.WellFormed) {respect : Bool} {c : Catalog}
    (h : build g respect = .ok c) : c.Describes g ∧ c.respectVisibility = respect := by
  obtain ⟨entries, hentries, h⟩ := bind_eq_ok.mp h
  rw [← Except.ok.inj h]
  refine ⟨⟨fun e he ↦ ?_⟩, rfl⟩
  obtain ⟨index, hindex, hentry⟩ := exists_of_mem_mapM hentries he
  obtain ⟨-, hlabel⟩ := List.mem_filter.mp hindex
  obtain ⟨v, hv, hlabel⟩ := Option.any_eq_true _ _ |>.mp hlabel
  have hvertex := Graph.vertex_eq_ok.mpr hv
  rw [entry_eq hg hvertex] at hentry
  rw [← Except.ok.inj hentry]
  exact ⟨v, hvertex, of_decide_eq_true hlabel, rfl, rfl, rfl, rfl⟩

/-- What a profile may be offered: a visible listing that the profile does not keep. -/
def Offers (g : Graph) (c : Catalog) (profile : VertexIndex) (listing : ElementId) : Prop :=
  ∃ index, c.visibleTo index ((g.neighbours .source profile Label.inAgency).map g.idAt) = true ∧
    g.idAt index = listing ∧
      listing ∉ (g.neighbours .source profile Label.bookmarked).map g.idAt

/-- Where flags are respected, a visible vertex is a listing that may be recommended and, if it is
private, shares an agency. -/
theorem visibleTo_respecting {c : Catalog} (hc : c.Describes g) (hrespect : c.respectVisibility)
    {index : VertexIndex} {agencies : List ElementId} (h : c.visibleTo index agencies = true) :
    ∃ v, g.vertex index = .ok v ∧ v.label = Label.listing ∧ v.isRecommendable = true ∧
      (v.flag "is_private" false = true →
        ∃ a ∈ agencies, a ∈ (g.neighbours .source index Label.inAgency).map g.idAt) := by
  obtain ⟨e, hfind, hvisible⟩ := Option.any_eq_true _ _ |>.mp h
  rw [find?] at hfind
  obtain rfl : e.index = index := by simpa using List.find?_some hfind
  obtain ⟨v, hv, hlabel, -, hrecommendable, hprivate, hagencies⟩ :=
    hc.entry_eq e (List.mem_of_find?_eq_some hfind)
  rw [hrespect, Bool.not_true, Bool.false_or, Bool.and_eq_true, hrecommendable, hprivate,
    hagencies, Bool.or_eq_true] at hvisible
  refine ⟨v, hv, hlabel, hvisible.1, fun hflag ↦ ?_⟩
  rcases hvisible.2 with hpublic | hshared
  · rw [hflag] at hpublic
    exact absurd hpublic (by decide)
  · obtain ⟨a, ha, hcontains⟩ := List.any_eq_true.mp hshared
    exact ⟨a, List.contains_iff_mem.mp hcontains, ha⟩

end Catalog

/-! ## Queries of the strategies -/

namespace Domain

variable {g : Graph} {profile : ElementId} {index : VertexIndex}

theorem profileIds_eq (hg : g.WellFormed) :
    profileIds g =
      .ok ((g.vertexIndices.filter fun v ↦ g.labelAt v = Label.profile).map g.idAt) := by
  have hhas := Graph.has_vertexIndices hg.vertices_le
  refine Query.toIdList_of_denote (Query.outcome_build_vertices [.hasLabel [Label.profile]])
    (List.cons_ne_nil _ _) ?_ fun v hv ↦ hhas v (List.mem_filter.mp hv).1
  rw [denote, List.map_map, List.foldl_cons, items_identity, List.foldl_cons, List.foldl_nil]
  exact items_hasLabel hhas Label.profile

/-- A walk from one vertex, read off what its first step gives there. -/
theorem denote_walk {step : Step} {f : VertexIndex → List VertexIndex}
    (hstep : ∀ {vs : List VertexIndex}, (∀ v ∈ vs, g.Has v) →
      step.items g (vertexItems vs) = vertexItems (vs.flatMap f))
    (h : g.Has index) (steps : List Step) :
    denote g (.identity :: step :: steps) [.vertex index]
      = steps.foldl (fun items step ↦ step.items g items) (vertexItems (f index)) := by
  have hone := hstep fun v (hv : v ∈ [index]) ↦ List.mem_singleton.mp hv ▸ h
  rw [List.flatMap_singleton] at hone
  rw [denote, List.foldl_cons, items_identity, List.foldl_cons]
  exact congrArg (steps.foldl _) hone

theorem denote_out (hg : g.WellFormed) (h : g.Has index) (label : String) (steps : List Step) :
    denote g (.identity :: .out [label] :: steps) [.vertex index]
      = steps.foldl (fun items step ↦ step.items g items)
        (vertexItems (g.neighbours .source index label)) :=
  denote_walk (fun hvs ↦ items_out hg hvs label) h steps

theorem denote_into (hg : g.WellFormed) (h : g.Has index) (label : String) (steps : List Step) :
    denote g (.identity :: .into [label] :: steps) [.vertex index]
      = steps.foldl (fun items step ↦ step.items g items)
        (vertexItems (g.neighbours .target index label)) :=
  denote_walk (fun hvs ↦ items_into hg hvs label) h steps

theorem targetIds_eq (hg : g.WellFormed) (h : g.find? profile = some index) (label : String) :
    targetIds g profile label = .ok ((g.neighbours .source index label).map g.idAt) := by
  obtain ⟨v, hv, -⟩ := hg.vertex_of_find? h
  exact Query.toIdList_of_denote (Query.outcome_build_ofIds h [.out [label]])
    (List.cons_ne_nil _ _) (denote_out hg ⟨v, hv⟩ label [])
    fun w hw ↦ Graph.vertex_of_mem_neighbours hg hw

end Domain

/-! ## Collaborative filtering -/

namespace Collaborative

variable {g : Graph} {profile : ElementId} {index : VertexIndex}

/-- What a profile keeps, each listing once. -/
def kept (g : Graph) (profile : VertexIndex) : List VertexIndex :=
  (g.neighbours .source profile Label.bookmarked).eraseDups

/-- The profiles that keep something in common with a profile. -/
def similar (g : Graph) (profile : VertexIndex) : List VertexIndex :=
  ((g.neighbours .source profile Label.bookmarked).flatMap fun v ↦
    g.neighbours .target v Label.bookmarked).eraseDups.filter fun v ↦ g.idAt v ∉ [g.idAt profile]

theorem has_kept (hg : g.WellFormed) : ∀ v ∈ kept g index, g.Has v :=
  fun _ hv ↦ Graph.vertex_of_mem_neighbours hg (List.mem_eraseDups.mp hv)

theorem has_similar (hg : g.WellFormed) : ∀ v ∈ similar g index, g.Has v :=
  fun v hv ↦ Graph.has_neighbours hg v (List.mem_eraseDups.mp (List.mem_filter.mp hv).1)

theorem ownIds_eq (hg : g.WellFormed) (h : g.find? profile = some index) :
    ownIds g profile = .ok ((kept g index).map g.idAt) := by
  obtain ⟨v, hv, -⟩ := hg.vertex_of_find? h
  refine Query.toIdList_of_denote (Query.outcome_build_ofIds h [.out [Label.bookmarked], .distinct])
    (List.cons_ne_nil _ _) ?_ (has_kept hg)
  rw [denote_out hg ⟨v, hv⟩, List.foldl_cons, List.foldl_nil, items_distinct, kept]

theorem similarIds_eq (hg : g.WellFormed) (h : g.find? profile = some index) :
    similarIds g profile = .ok ((similar g index).map g.idAt) := by
  obtain ⟨v, hv, rfl⟩ := hg.vertex_of_find? h
  have hneighbours : ∀ w ∈ g.neighbours .source index Label.bookmarked, g.Has w :=
    fun w hw ↦ Graph.vertex_of_mem_neighbours hg hw
  refine Query.toIdList_of_denote (Query.outcome_build_ofIds h
    [.out [Label.bookmarked], .into [Label.bookmarked], .distinct, .excludeIds [v.id]])
    (List.cons_ne_nil _ _) ?_ (has_similar hg)
  rw [denote_out hg ⟨v, hv⟩, List.foldl_cons, items_into hg hneighbours, List.foldl_cons,
    items_distinct, List.foldl_cons, List.foldl_nil, items_excludeIds, similar, Graph.idAt_eq hv]
  exact fun w hw ↦ Graph.has_neighbours hg w (List.mem_eraseDups.mp hw)

theorem candidates_eq (hg : g.WellFormed) (h : g.find? profile = some index)
    (own : List ElementId) :
    candidates g own profile
      = .ok (((kept g index).filter fun v ↦ g.idAt v ∉ own).map .vertex) := by
  obtain ⟨v, hv, -⟩ := hg.vertex_of_find? h
  refine Query.toList_of_denote (Query.outcome_build_ofIds h
    [.out [Label.bookmarked], .distinct, .excludeIds own]) (List.cons_ne_nil _ _) ?_
  rw [denote_out hg ⟨v, hv⟩, List.foldl_cons, items_distinct, List.foldl_cons, List.foldl_nil,
    items_excludeIds, kept]
  exact has_kept hg

theorem vote_eq (catalog : Catalog) (weighting : Weighting) (agencies : List ElementId)
    (table : ScoreTable) (h : g.Has index) :
    vote g catalog weighting agencies table (.vertex index)
      = .ok (if catalog.visibleTo index agencies then
          table.add (g.idAt index) .one (weighting = .frequency)
        else table) := by
  obtain ⟨v, hv⟩ := h
  simp only [vote, Element.asVertex?, hv, ok_bind, Graph.idAt_eq hv]
  cases catalog.visibleTo index agencies <;> rfl

/-- Only what is offered receives a score. -/
theorem offers_of_scoreProfile (hg : g.WellFormed) {catalog : Catalog} {weighting : Weighting}
    {table : ScoreTable} (hfind : g.find? profile = some index)
    (h : scoreProfile g catalog weighting profile = .ok table) :
    ∀ listing ∈ table.keys, catalog.Offers g index listing := by
  rw [scoreProfile, ownIds_eq hg hfind, ok_bind, agenciesOf, targetIds_eq hg hfind, ok_bind,
    similarIds_eq hg hfind, ok_bind] at h
  refine foldlM_keeps (fun t : ScoreTable ↦ ∀ listing ∈ t.keys, catalog.Offers g index listing)
    ?_ (fun _ hlisting ↦ absurd hlisting List.not_mem_nil) h
  -- every score comes from the vote of one similar profile for one listing that it keeps
  intro other hother t t' ht hstep
  obtain ⟨w, hw, rfl⟩ := List.mem_map.mp hother
  obtain ⟨place, hplace⟩ := Graph.exists_find?_idAt hg (has_similar hg w hw)
  rw [candidates_eq hg hplace, ok_bind] at hstep
  refine foldlM_keeps (fun t : ScoreTable ↦ ∀ listing ∈ t.keys, catalog.Offers g index listing)
    ?_ ht hstep
  intro candidate hcandidate t t' ht hvote
  obtain ⟨v, hv, rfl⟩ := List.mem_map.mp hcandidate
  obtain ⟨hkept, hnew⟩ := List.mem_filter.mp hv
  rw [vote_eq catalog weighting _ t (has_kept hg v hkept)] at hvote
  rw [← Except.ok.inj hvote]
  intro listing hlisting
  split at hlisting
  · rename_i hvisible
    rcases ScoreTable.mem_keys_add hlisting with hlisting | rfl
    · exact ht listing hlisting
    · refine ⟨v, hvisible, rfl, fun hown ↦ of_decide_eq_true hnew ?_⟩
      obtain ⟨u, hu, heq⟩ := List.mem_map.mp hown
      exact List.mem_map.mpr ⟨u, List.mem_eraseDups.mpr hu, heq⟩
  · exact ht listing hlisting

end Collaborative

/-! ## Popularity -/

namespace Popularity

variable {g : Graph} {profile : ElementId} {index : VertexIndex}

theorem exists_entry_of_mem_popular {catalog : Catalog} {ranked : List PopularListing}
    (h : popular g catalog = .ok ranked) {listing : PopularListing} (hlisting : listing ∈ ranked) :
    ∃ e ∈ catalog.entries, listing.index = e.index ∧ listing.id = e.id := by
  obtain ⟨counted, hcounted, h⟩ := bind_eq_ok.mp h
  rw [← Except.ok.inj h, List.mem_mergeSort] at hlisting
  obtain ⟨⟨e, count⟩, hmem, rfl⟩ := List.mem_map.mp hlisting
  obtain ⟨e', he', hentry⟩ := exists_of_mem_mapM hcounted (List.mem_filter.mp hmem).1
  obtain ⟨n, -, heq⟩ := bind_eq_ok.mp hentry
  obtain ⟨rfl, -⟩ := Prod.mk.inj (Except.ok.inj heq)
  exact ⟨e', he', rfl, rfl⟩

/-- Only what is offered receives a score. -/
theorem offers_of_scoreProfile (hg : g.WellFormed) {catalog : Catalog} (hc : catalog.Describes g)
    {ranked : List PopularListing} {topN : Nat} {table : ScoreTable}
    (hranked : popular g catalog = .ok ranked) (hfind : g.find? profile = some index)
    (h : scoreProfile g catalog ranked topN profile = .ok table) :
    ∀ listing ∈ table.keys, catalog.Offers g index listing := by
  rw [scoreProfile, agenciesOf, targetIds_eq hg hfind, ok_bind, targetIds_eq hg hfind,
    ok_bind] at h
  rw [← Except.ok.inj h]
  refine List.foldlRecOn
    (motive := fun t : ScoreTable ↦ ∀ listing ∈ t.keys, catalog.Offers g index listing)
    ranked _ (fun _ hlisting ↦ absurd hlisting List.not_mem_nil) ?_
  -- an offer is left out once enough are made, and for what is kept or not visible
  intro t ht listing hmem other hother
  rw [offer] at hother
  split at hother
  · exact ht other hother
  · split at hother
    · exact ht other hother
    · rename_i hoffered
      rcases ScoreTable.mem_keys_add hother with hother | rfl
      · exact ht other hother
      · obtain ⟨e, he, hindex, hid⟩ := exists_entry_of_mem_popular hranked hmem
        obtain ⟨v, hv, -, hidv, -⟩ := hc.entry_eq e he
        rw [Bool.or_eq_true, not_or, Bool.not_eq_true', Bool.not_eq_false,
          List.contains_iff_mem] at hoffered
        refine ⟨listing.index, hoffered.2, ?_, hoffered.1⟩
        rw [hindex, Graph.idAt_eq hv, hid, hidv]

end Popularity

end BookmarkGraph
