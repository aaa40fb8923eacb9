import BookmarkGraph.Proofs.Graph.Incidence

/-!
# What a graph holds

Seen from outside, a graph holds rows, one for every vertex, and links, one for every edge, which
name vertices by their ids. This file reads the links off a graph and says what the mutations do to
them. As ids are unique, the neighbours of a vertex and the links from its id are the same thing.
-/

namespace BookmarkGraph

/-- An edge between the vertices of two ids. -/
structure Link where
  /-- The label of the edge. -/
  label : String
  /-- The id of the vertex that the edge leaves. -/
  source : ElementId
  /-- The id of the vertex at which the edge arrives. -/
  target : ElementId
deriving DecidableEq

def EdgeEnd.other : EdgeEnd → EdgeEnd
  | .source => .target
  | .target => .source

namespace Link

def idAt (link : Link) : EdgeEnd → ElementId
  | .source => link.source
  | .target => link.target

/-- The ids across from an id that links have at the given end, one for each of these links. -/
def across (which : EdgeEnd) (id : ElementId) (links : List Link) : List ElementId :=
  (links.filter (·.idAt which = id)).map (·.idAt which.other)

end Link

namespace Graph

/-- The links of a graph in the order of insertion. -/
def links (g : Graph) : List Link :=
  g.edges.toList.map fun edge ↦ ⟨edge.label, g.idAt edge.source, g.idAt edge.target⟩

def linksWithLabel (g : Graph) (label : String) : List Link := g.links.filter (·.label = label)

/-- What is met from a vertex across its edges of a label that have the given end there. -/
def neighbours (g : Graph) (which : EdgeEnd) (index : VertexIndex) (label : String) :
    List VertexIndex :=
  ((g.incident which index).filter fun e ↦ e.2.label = label).map fun e ↦ e.2.vertexAt which.other

/-! ## Links and neighbours -/

theorem length_links (g : Graph) : g.links.length = g.edges.size := by
  rw [links, List.length_map, Array.length_toList]

theorem mem_neighbours {g : Graph} (hg : g.WellFormed) {which : EdgeEnd}
    {index other : VertexIndex} {label : String} :
    other ∈ g.neighbours which index label ↔ ∃ e edge, g.edge e = .ok edge ∧
      edge.vertexAt which = index ∧ edge.label = label ∧ edge.vertexAt which.other = other := by
  rw [neighbours, List.mem_map]
  constructor
  · rintro ⟨⟨e, edge⟩, hmem, rfl⟩
    obtain ⟨hmem, hlabel⟩ := List.mem_filter.mp hmem
    obtain ⟨hedge, hend⟩ := (mem_incident hg.edges_le).mp hmem
    exact ⟨e, edge, hedge, hend, of_decide_eq_true hlabel, rfl⟩
  · rintro ⟨e, edge, hedge, hend, hlabel, rfl⟩
    exact ⟨(e, edge), List.mem_filter.mpr
      ⟨(mem_incident hg.edges_le).mpr ⟨hedge, hend⟩, decide_eq_true hlabel⟩, rfl⟩

theorem vertex_of_mem_neighbours {g : Graph} (hg : g.WellFormed) {which : EdgeEnd}
    {index other : VertexIndex} {label : String} (h : other ∈ g.neighbours which index label) :
    ∃ v, g.vertex other = .ok v := by
  obtain ⟨e, edge, hedge, -, -, rfl⟩ := (mem_neighbours hg).mp h
  exact hg.exists_vertexAt hedge which.other

/-- The neighbours of a vertex are met in the order of the links at its id, one for each link. -/
theorem map_idAt_neighbours {g : Graph} (hg : g.WellFormed)
    {index : VertexIndex} {v : Vertex} (hv : g.vertex index = .ok v) (which : EdgeEnd)
    (label : String) :
    (g.neighbours which index label).map g.idAt
      = Link.across which v.id (g.linksWithLabel label) := by
  have hends : ∀ (edge : Edge) (which : EdgeEnd),
      Link.idAt ⟨edge.label, g.idAt edge.source, g.idAt edge.target⟩ which
        = g.idAt (edge.vertexAt which) := by
    intro edge which
    cases which <;> rfl
  -- an edge has its end at the vertex if and only if its link has its end at the id
  have hat : ∀ e ∈ g.indexedEdges,
      decide (g.idAt (e.2.vertexAt which) = v.id) = decide (e.2.vertexAt which = index) := by
    intro e he
    obtain ⟨w, hw⟩ := hg.exists_vertexAt ((mem_indexedEdges hg.edges_le).mp he) which
    rw [decide_eq_decide, idAt_eq hw]
    refine ⟨hg.index_inj hw hv, fun heq ↦ ?_⟩
    rw [heq, hv] at hw
    rw [Except.ok.inj hw]
  have hfilter : (g.indexedEdges.filter fun e ↦
        decide (e.2.label = label) && decide (e.2.vertexAt which = index))
      = g.indexedEdges.filter fun e ↦
        decide (g.idAt (e.2.vertexAt which) = v.id) && decide (e.2.label = label) := by
    refine List.filter_congr fun e he ↦ ?_
    rw [hat e he, Bool.and_comm]
  have hlinks : g.links = g.indexedEdges.map fun e ↦
      ⟨e.2.label, g.idAt e.2.source, g.idAt e.2.target⟩ := by
    rw [links, ← map_snd_indexedEdges, List.map_map]
    rfl
  rw [neighbours, incident, List.filter_filter, hfilter, List.map_map, Link.across, linksWithLabel,
    hlinks, List.filter_map, List.filter_map, List.filter_filter, List.map_map]
  simp only [Function.comp_def, hends]

theorem mem_idAt_neighbours {g : Graph} (hg : g.WellFormed)
    {index : VertexIndex} {v : Vertex} (hv : g.vertex index = .ok v) {label : String}
    {target : ElementId} :
    target ∈ (g.neighbours .source index label).map g.idAt ↔ ⟨label, v.id, target⟩ ∈ g.links := by
  rw [map_idAt_neighbours hg hv, Link.across, linksWithLabel, List.mem_map]
  constructor
  · rintro ⟨⟨l, source, t⟩, hlink, rfl⟩
    simp only [List.mem_filter, decide_eq_true_eq] at hlink
    obtain ⟨⟨hlink, rfl⟩, rfl⟩ := hlink
    exact hlink
  · intro h
    exact ⟨_, List.mem_filter.mpr ⟨List.mem_filter.mpr ⟨h, decide_eq_true rfl⟩,
      decide_eq_true rfl⟩, rfl⟩

/-! ## Mutations -/

theorem links_pushVertex {g : Graph} (hg : g.WellFormed) (id : ElementId) (label : String)
    (properties : Properties) : (g.pushVertex id label properties).links = g.links := by
  have hidAt : ∀ edge ∈ g.edges, ∀ which, (g.pushVertex id label properties).idAt
      (edge.vertexAt which) = g.idAt (edge.vertexAt which) := by
    intro edge hedge which
    rw [idAt, ids_pushVertex, List.getElem?_append_left, ← idAt]
    rw [length_ids]
    exact hg.endpoint_lt edge hedge which
  refine List.map_congr_left fun edge hedge ↦ ?_
  have hmem := Array.mem_toList_iff.mp hedge
  exact Link.mk.injEq .. ▸ ⟨rfl, hidAt edge hmem .source, hidAt edge hmem .target⟩

theorem links_register (g : Graph) (label : String) (source target : VertexIndex)
    (properties : Properties) :
    (g.register label source target properties).links
      = g.links ++ [⟨label, g.idAt source, g.idAt target⟩] := by
  have hidAt : (g.register label source target properties).idAt = g.idAt := by
    funext index
    rw [idAt, ids_register, ← idAt]
  -- an edge never changes an id, so the old links read the same
  rw [links, hidAt, register, Array.toList_push, List.map_append, ← links]
  rfl

end Graph

end BookmarkGraph
