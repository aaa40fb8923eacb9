import BookmarkGraph.Pipe.Step
import BookmarkGraph.Proofs.Graph.EdgeLists
import BookmarkGraph.Proofs.Graph.Ids

/-!
# Edges and the vertices that file them

A graph keeps every edge three times: in the arena of edges, among the outgoing edges of the vertex
that it leaves, and among the incoming edges of the vertex at which it arrives. This file shows that
the three always agree, whatever mutations were tried and whether they succeeded or failed.

## The invariant

`Graph.incident` reads off the arena alone which edges have an end at a vertex. `Graph.WellFormed`
says that each side of each vertex is what filing these edges in their order produces, so
everything else about edge lists follows from `EdgeLists.ofEdges`. The ends of an edge are treated
alike, which covers loops: a loop changes both sides of one vertex.
-/

namespace BookmarkGraph

def Edge.vertexAt (edge : Edge) : EdgeEnd → VertexIndex
  | .source => edge.source
  | .target => edge.target

/-- The edges of a vertex that have the given end there. -/
def Vertex.edgesAt (v : Vertex) : EdgeEnd → EdgeLists
  | .source => v.outgoing
  | .target => v.incoming

namespace Graph

/-! ## The edges at a vertex, read off the arena -/

def indexedEdges (g : Graph) : List (EdgeIndex × Edge) :=
  g.edges.toList.zipIdx.map fun e ↦ (⟨UInt32.ofNat e.2⟩, e.1)

/-- The edges with a given end at a vertex, in the order of insertion. -/
def incident (g : Graph) (which : EdgeEnd) (index : VertexIndex) : List (EdgeIndex × Edge) :=
  g.indexedEdges.filter fun e ↦ e.2.vertexAt which = index

theorem map_fst_indexedEdges (g : Graph) :
    g.indexedEdges.map (·.1) = (List.range g.edges.size).map fun i ↦ ⟨UInt32.ofNat i⟩ := by
  rw [indexedEdges, List.map_map, ← Array.length_toList, List.range_eq_range',
    ← List.zipIdx_map_snd 0 g.edges.toList, List.map_map]
  rfl

theorem map_snd_indexedEdges (g : Graph) : g.indexedEdges.map (·.2) = g.edges.toList := by
  rw [indexedEdges, List.map_map]
  exact List.zipIdx_map_fst 0 g.edges.toList

theorem mem_indexedEdges {g : Graph} (hsize : g.edges.size ≤ arenaCapacity) {e : EdgeIndex}
    {edge : Edge} : (e, edge) ∈ g.indexedEdges ↔ g.edge e = .ok edge := by
  rw [indexedEdges, edge_eq_ok, ← Array.getElem?_toList, List.mem_map]
  constructor
  · rintro ⟨⟨edge', i⟩, hmem, heq⟩
    obtain ⟨rfl, rfl⟩ := Prod.mk.injEq .. ▸ heq
    have hi := List.mk_mem_zipIdx_iff_getElem?.mp hmem
    have hlt : i < arenaCapacity :=
      Nat.lt_of_lt_of_le (by simpa using (List.getElem?_eq_some_iff.mp hi).1) hsize
    rw [UInt32.toNat_ofNat_of_lt' hlt]
    exact hi
  · intro h
    exact ⟨(edge, e.position.toNat), List.mk_mem_zipIdx_iff_getElem?.mpr h, by simp⟩

/-- Indices ascend in the order of insertion. -/
theorem ascending_indexedEdges {g : Graph} (hsize : g.edges.size ≤ arenaCapacity) :
    (g.indexedEdges.map (·.1)).Pairwise fun a b ↦ a.position < b.position := by
  rw [map_fst_indexedEdges, List.pairwise_map]
  refine List.pairwise_lt_range.imp_of_mem fun {i j} hi hj hlt ↦ ?_
  have hi' := Nat.lt_of_lt_of_le (List.mem_range.mp hi) hsize
  have hj' := Nat.lt_of_lt_of_le (List.mem_range.mp hj) hsize
  rw [UInt32.lt_iff_toNat_lt, UInt32.toNat_ofNat_of_lt' hi', UInt32.toNat_ofNat_of_lt' hj']
  exact hlt

theorem mem_incident {g : Graph} (hsize : g.edges.size ≤ arenaCapacity) {which : EdgeEnd}
    {index : VertexIndex} {e : EdgeIndex} {edge : Edge} :
    (e, edge) ∈ g.incident which index ↔ g.edge e = .ok edge ∧ edge.vertexAt which = index := by
  rw [incident, List.mem_filter, mem_indexedEdges hsize, decide_eq_true_eq]

theorem ascending_incident {g : Graph} (hsize : g.edges.size ≤ arenaCapacity) (which : EdgeEnd)
    (index : VertexIndex) :
    ((g.incident which index).map (·.1)).Pairwise fun a b ↦ a.position < b.position :=
  (ascending_indexedEdges hsize).sublist (List.filter_sublist.map _)

/-! ## The invariant -/

/-- The index agrees with the vertices, and every vertex files on each side exactly the edges of the
arena that have an end there. -/
structure WellFormed (g : Graph) : Prop extends Indexed g where
  /-- Every edge has an index. -/
  edges_le : g.edges.size ≤ arenaCapacity
  /-- Both ends of an edge are vertices of the graph. -/
  endpoint_lt : ∀ edge ∈ g.edges, ∀ which, (edge.vertexAt which).position.toNat < g.vertices.size
  /-- A side of a vertex is filled by the edges that have an end there. -/
  edgesAt_eq : ∀ {index v}, g.vertex index = .ok v → ∀ which,
    v.edgesAt which = .ofEdges (g.incident which index)

theorem wellFormed_empty : WellFormed .empty where
  toIndexed := .empty
  edges_le := Nat.zero_le _
  endpoint_lt edge h := absurd h (Array.not_mem_empty edge)
  edgesAt_eq h := by simp [Graph.vertex, empty] at h

theorem incident_eq_nil {g : Graph} (hg : g.WellFormed) {which : EdgeEnd} {index : VertexIndex}
    (h : g.vertices.size ≤ index.position.toNat) : g.incident which index = [] := by
  rw [incident, List.filter_eq_nil_iff]
  rintro ⟨e, edge⟩ hmem heq
  have hedge := edge_eq_ok.mp ((mem_indexedEdges hg.edges_le).mp hmem)
  have hlt := hg.endpoint_lt edge (Array.mem_of_getElem? hedge) which
  rw [of_decide_eq_true heq] at hlt
  exact absurd hlt (Nat.not_lt.mpr h)

theorem WellFormed.pushVertex {g : Graph} (hg : g.WellFormed)
    (hroom : g.vertices.size < arenaCapacity) {id : ElementId} (hnew : g.hasId id = false)
    (label : String) (properties : Properties) :
    WellFormed (g.pushVertex id label properties) where
  toIndexed := hg.toIndexed.pushVertex hroom hnew label properties
  edges_le := hg.edges_le
  endpoint_lt edge h which := by
    rw [Graph.pushVertex, Array.size_push]
    exact Nat.lt_succ_of_lt (hg.endpoint_lt edge h which)
  edgesAt_eq {index v} h which := by
    rw [vertex_eq_ok, Graph.pushVertex, Array.getElem?_push] at h
    change v.edgesAt which = .ofEdges (g.incident which index)
    split at h
    · -- the new vertex: no edge of the arena can have an end at it yet
      rename_i hindex
      rw [incident_eq_nil hg (Nat.le_of_eq hindex.symm), ← Option.some.inj h]
      cases which <;> rfl
    · exact hg.edgesAt_eq (vertex_eq_ok.mpr h) which

/-! ## Registering an edge -/

/-- The edge that a registration adds to the arena. -/
def newEdge (g : Graph) (label : String) (source target : VertexIndex)
    (properties : Properties) : Edge :=
  ⟨.number (UInt64.ofNat (g.edges.size + 1)), label, properties, source, target⟩

theorem indexedEdges_register (g : Graph) (label : String) (source target : VertexIndex)
    (properties : Properties) :
    (g.register label source target properties).indexedEdges
      = g.indexedEdges
        ++ [(⟨UInt32.ofNat g.edges.size⟩, g.newEdge label source target properties)] := by
  rw [indexedEdges, register, Array.toList_push, List.zipIdx_append, List.map_append,
    ← indexedEdges, Array.length_toList, Nat.zero_add]
  rfl

theorem incident_register (g : Graph) (label : String) (source target : VertexIndex)
    (properties : Properties) (which : EdgeEnd) (index : VertexIndex) :
    (g.register label source target properties).incident which index
      = if (g.newEdge label source target properties).vertexAt which = index then
          g.incident which index
            ++ [(⟨UInt32.ofNat g.edges.size⟩, g.newEdge label source target properties)]
        else g.incident which index := by
  rw [incident, indexedEdges_register, List.filter_append, ← incident]
  split
  · rename_i h
    rw [List.filter_cons_of_pos (by simpa using h), List.filter_nil]
  · rename_i h
    rw [List.filter_cons_of_neg (by simpa using h), List.filter_nil, List.append_nil]

/-- A registration files the new edge at its ends and leaves all else at a vertex as it was. -/
theorem vertex_register {g : Graph} {label : String} {source target index : VertexIndex}
    {properties : Properties} {v : Vertex}
    (h : (g.register label source target properties).vertex index = .ok v) :
    ∃ w, g.vertex index = .ok w ∧ v.id = w.id ∧ v.label = w.label ∧
      v.properties = w.properties ∧ ∀ which,
        v.edgesAt which =
          if (g.newEdge label source target properties).vertexAt which = index then
            (w.edgesAt which).push label ⟨UInt32.ofNat g.edges.size⟩
          else w.edgesAt which := by
  rw [vertex_eq_ok, register, Array.getElem?_modify, Array.getElem?_modify] at h
  simp only [position_toNat_inj] at h
  cases hw : g.vertices[index.position.toNat]? with
  | none =>
    rw [hw] at h
    split at h <;> split at h <;> simp at h
  | some w =>
    refine ⟨w, vertex_eq_ok.mpr hw, ?_⟩
    rw [hw] at h
    -- whether the vertex is the source, the target, both (a loop) or neither
    by_cases hs : source = index <;> by_cases ht : target = index <;>
      simp only [hs, ht, if_true, if_false, Option.map_some, Option.some.injEq] at h <;>
      subst h <;> refine ⟨rfl, rfl, rfl, fun which ↦ ?_⟩ <;>
      cases which <;> simp [newEdge, Edge.vertexAt, Vertex.edgesAt, hs, ht]

theorem WellFormed.register {g : Graph} (hg : g.WellFormed) {source target : VertexIndex}
    (hs : source.position.toNat < g.vertices.size) (ht : target.position.toNat < g.vertices.size)
    (hroom : g.edges.size < arenaCapacity) (label : String) (properties : Properties) :
    WellFormed (g.register label source target properties) where
  toIndexed := hg.toIndexed.register label source target properties
  edges_le := by rw [Graph.register, Array.size_push]; exact hroom
  endpoint_lt edge h which := by
    rw [size_vertices_register]
    rw [Graph.register, Array.mem_push] at h
    rcases h with h | rfl
    · exact hg.endpoint_lt edge h which
    · cases which
      · exact hs
      · exact ht
  edgesAt_eq {index v} h which := by
    obtain ⟨w, hw, -, -, -, hedges⟩ := vertex_register h
    rw [hedges which, incident_register, hg.edgesAt_eq hw which]
    -- filing commutes with appending, and the arena and this side got the same edge or none
    split
    · rw [EdgeLists.ofEdges_append]
      rfl
    · rfl

theorem Reachable.wellFormed {g : Graph} (h : g.Reachable) : g.WellFormed := by
  -- a failed mutation can still use up a number, on which neither index nor edge lists depend
  refine h.induct wellFormed_empty ?_ ?_ ?_
  · intro g number hg
    exact ⟨⟨hg.vertices_le, hg.find?_eq_some_iff, hg.size_index⟩, hg.edges_le, hg.endpoint_lt,
      hg.edgesAt_eq⟩
  · intro g id label properties hroom hnew hg
    exact hg.pushVertex hroom (hnew hg.size_index_lt) label properties
  · intro g label source target properties hs ht hroom hg
    exact hg.register hs ht hroom label properties

/-! ## Membership in edge lists -/

theorem nodup_map_fst_incident {g : Graph} (hsize : g.edges.size ≤ arenaCapacity)
    (which : EdgeEnd) (index : VertexIndex) : ((g.incident which index).map (·.1)).Nodup := by
  refine (ascending_incident hsize which index).imp fun {a b} hlt heq ↦ ?_
  rw [heq] at hlt
  exact UInt32.lt_irrefl _ hlt

/-- An edge stands in the group of its label at its end, and in no other group of the graph. -/
theorem WellFormed.mem_get {g : Graph} (hg : g.WellFormed) {index : VertexIndex} {v : Vertex}
    (hv : g.vertex index = .ok v) {which : EdgeEnd} {e : EdgeIndex} {label : String} :
    e ∈ (v.edgesAt which).get label ↔
      ∃ edge, g.edge e = .ok edge ∧ edge.vertexAt which = index ∧ edge.label = label := by
  rw [hg.edgesAt_eq hv which, EdgeLists.get_ofEdges, List.mem_map]
  constructor
  · rintro ⟨⟨e', edge⟩, hmem, rfl⟩
    obtain ⟨hmem, hlabel⟩ := List.mem_filter.mp hmem
    obtain ⟨hedge, hend⟩ := (mem_incident hg.edges_le).mp hmem
    exact ⟨edge, hedge, hend, of_decide_eq_true hlabel⟩
  · rintro ⟨edge, hedge, hend, hlabel⟩
    exact ⟨(e, edge), List.mem_filter.mpr
      ⟨(mem_incident hg.edges_le).mpr ⟨hedge, hend⟩, decide_eq_true hlabel⟩, rfl⟩

theorem WellFormed.exists_vertexAt {g : Graph} (hg : g.WellFormed) {e : EdgeIndex} {edge : Edge}
    (h : g.edge e = .ok edge) (which : EdgeEnd) : ∃ v, g.vertex (edge.vertexAt which) = .ok v := by
  have hlt := hg.endpoint_lt edge (Array.mem_of_getElem? (edge_eq_ok.mp h)) which
  exact ⟨_, vertex_eq_ok.mpr (Array.getElem?_eq_getElem hlt)⟩

end Graph

/-! ## What edge lists say about the graph -/

/-- Edge lists file a sequence of edges: the labels in the order of first use, under each of them
the subsequence of that label, and nothing else. -/
structure EdgeLists.Files (lists : EdgeLists) (edges : List (EdgeIndex × Edge)) : Prop where
  /-- The group of a label is the subsequence of the label. -/
  get_eq : ∀ label, lists.get label = (edges.filter fun e ↦ e.2.label = label).map (·.1)
  /-- Labels stand in the order of first use. -/
  labels_eq : lists.labels = (edges.map (·.2.label)).eraseDups
  /-- No label has two groups. -/
  nodup_labels : lists.labels.Nodup
  /-- A label that is listed has an edge. -/
  group_ne_nil : ∀ group ∈ lists.groups.rows, group.2 ≠ []
  /-- All groups together are the sequence, rearranged. -/
  all_perm : lists.all.Perm (edges.map (·.1))
  /-- The size counts every edge. -/
  size_eq : lists.size = edges.length
  /-- Lists without edges, and only those, are empty. -/
  isEmpty_iff : lists.isEmpty = true ↔ edges = []

theorem EdgeLists.files_ofEdges (edges : List (EdgeIndex × Edge)) :
    (EdgeLists.ofEdges edges).Files edges where
  get_eq := get_ofEdges edges
  labels_eq := labels_ofEdges edges
  nodup_labels := (ofEdges edges).groups.nodup_keys
  group_ne_nil := group_ne_nil_ofEdges edges
  all_perm := all_ofEdges edges
  size_eq := size_ofEdges edges
  isEmpty_iff := isEmpty_ofEdges edges

namespace Graph

/-- **The edge lists of a graph agree with its arena.** Edges join vertices of the graph. What the
arena has at an end of a vertex is a strictly ascending sequence of edges, and that side of the
vertex files precisely this sequence. So every edge stands in exactly one outgoing and in exactly
one incoming group of the graph, and nowhere twice. -/
theorem Reachable.edges_filed {g : Graph} (h : g.Reachable) :
    (∀ edge ∈ g.edges, ∀ which, (edge.vertexAt which).position.toNat < g.vertices.size) ∧
    (∀ which index,
      (∀ e edge, (e, edge) ∈ g.incident which index ↔
        g.edge e = .ok edge ∧ edge.vertexAt which = index) ∧
      ((g.incident which index).map (·.1)).Pairwise fun a b ↦ a.position < b.position) ∧
    (∀ which index v, g.vertex index = .ok v →
      (v.edgesAt which).Files (g.incident which index) ∧ (v.edgesAt which).all.Nodup) ∧
    ∀ which e edge, g.edge e = .ok edge →
      ∃! place : VertexIndex × String,
        ∃ v, g.vertex place.1 = .ok v ∧ e ∈ (v.edgesAt which).get place.2 := by
  have hg := h.wellFormed
  refine ⟨hg.endpoint_lt, fun which index ↦ ⟨fun e edge ↦ mem_incident hg.edges_le,
    ascending_incident hg.edges_le which index⟩, fun which index v hv ↦ ?_,
    fun which e edge hedge ↦ ?_⟩
  · rw [hg.edgesAt_eq hv which]
    exact ⟨EdgeLists.files_ofEdges _,
      (EdgeLists.all_ofEdges _).nodup_iff.mpr (nodup_map_fst_incident hg.edges_le which index)⟩
  · obtain ⟨v, hv⟩ := hg.exists_vertexAt hedge which
    refine ⟨(edge.vertexAt which, edge.label), ⟨v, hv, (hg.mem_get hv).mpr
      ⟨edge, hedge, rfl, rfl⟩⟩, ?_⟩
    rintro ⟨index, label⟩ ⟨w, hw, hmem⟩
    obtain ⟨edge', hedge', rfl, rfl⟩ := (hg.mem_get hw).mp hmem
    rw [hedge] at hedge'
    rw [Except.ok.inj hedge']

/-- Two vertices with a loop, two parallel edges, an edge of another label and two mutations that
fail on the way. -/
def tangled : Graph :=
  let a : VertexIndex := ⟨0⟩
  let b : VertexIndex := ⟨1⟩
  let g := (empty.addVertex "page" .empty none).graph
  let g := (g.addVertex "page" .empty (some (.name "b"))).graph
  let g := (g.addEdge "links" a b .empty).graph
  let g := (g.addEdge "links" a a .empty).graph
  let g := (g.addEdge "links" a ⟨2⟩ .empty).graph
  let g := (g.addEdge "cites" a b .empty).graph
  let g := (g.addEdgeBetween "links" (.number 9) (.name "b") .empty).graph
  (g.addEdgeBetween "links" (.number 1) (.name "b") .empty).graph

theorem reachable_tangled : tangled.Reachable :=
  .addEdgeBetween _ _ _ _ <| .addEdgeBetween _ _ _ _ <| .addEdge _ _ _ _ <| .addEdge _ _ _ _ <|
    .addEdge _ _ _ _ <| .addEdge _ _ _ _ <| .addVertex _ _ _ <| .addVertex _ _ _ .empty

theorem edges_filed_tangled :
    tangled.Reachable ∧ ∃ v, tangled.vertex ⟨0⟩ = .ok v ∧
      v.outgoing.get "links" = [⟨0⟩, ⟨1⟩, ⟨3⟩] ∧ v.outgoing.labels = ["links", "cites"] ∧
      v.incoming.get "links" = [⟨1⟩] ∧ v.incoming.size = 1 := by
  obtain ⟨-, -, hfiles, -⟩ := reachable_tangled.edges_filed
  have hsize : 0 < tangled.vertices.size := by decide +kernel
  have hv : tangled.vertex ⟨0⟩ = .ok tangled.vertices[0] :=
    vertex_eq_ok.mpr (Array.getElem?_eq_getElem hsize)
  have hout := (hfiles .source ⟨0⟩ _ hv).1
  have hin := (hfiles .target ⟨0⟩ _ hv).1
  exact ⟨reachable_tangled, _, hv, (hout.get_eq "links").trans (by decide +kernel),
    hout.labels_eq.trans (by decide +kernel), (hin.get_eq "links").trans (by decide +kernel),
    hin.size_eq.trans (by decide +kernel)⟩

end Graph

end BookmarkGraph
