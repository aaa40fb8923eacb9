import BookmarkGraph.Proofs.Graph.Mutations

/-!
# Ids name vertices and edges

Seen from outside, a vertex is a row with an id. The ids stand twice in a graph: in the rows, and in
the index together with their places. `Graph.Indexed` says that the two agree, so that an id is
found exactly at the place of the vertex that has it. No two vertices have the same id then, for an
id has one place in the index.

A new vertex keeps the agreement because its id is new to the index. That it is rests on the
agreement in turn: the index has no more ids than there are vertices, and there are more numbers
than that.

An edge is named by its place in the arena, which leaves room for edges and vertices of the same
number.
-/

namespace BookmarkGraph

/-- What a vertex carries apart from its edges. -/
structure Row where
  /-- The label of the vertex. -/
  label : String
  /-- The public id. -/
  id : ElementId
  /-- The property map. -/
  properties : Properties
deriving DecidableEq

def Vertex.row (v : Vertex) : Row := ⟨v.label, v.id, v.properties⟩

namespace Graph

def rows (g : Graph) : List Row := g.vertices.toList.map Vertex.row

def ids (g : Graph) : List ElementId := g.rows.map (·.id)

/-- The id at a place that holds a vertex. -/
def idAt (g : Graph) (index : VertexIndex) : ElementId :=
  g.ids[index.position.toNat]?.getD default

theorem edge_eq_ok {g : Graph} {index : EdgeIndex} {edge : Edge} :
    g.edge index = .ok edge ↔ g.edges[index.position.toNat]? = some edge := by
  rw [Graph.edge]
  cases g.edges[index.position.toNat]? <;> simp

theorem vertex_eq_ok {g : Graph} {index : VertexIndex} {v : Vertex} :
    g.vertex index = .ok v ↔ g.vertices[index.position.toNat]? = some v := by
  rw [Graph.vertex]
  cases g.vertices[index.position.toNat]? <;> simp

theorem position_lt {g : Graph} {index : VertexIndex} {v : Vertex} (h : g.vertex index = .ok v) :
    index.position.toNat < g.vertices.size :=
  (Array.getElem?_eq_some_iff.mp (vertex_eq_ok.mp h)).1

theorem position_toNat_inj {a b : VertexIndex} : a.position.toNat = b.position.toNat ↔ a = b := by
  obtain ⟨a⟩ := a
  obtain ⟨b⟩ := b
  rw [UInt32.toNat_inj, VertexIndex.mk.injEq]

/-! ## Rows and ids -/

theorem length_ids (g : Graph) : g.ids.length = g.vertices.size := by
  rw [ids, rows, List.length_map, List.length_map, Array.length_toList]

theorem getElem?_rows {g : Graph} {index : VertexIndex} {v : Vertex}
    (h : g.vertex index = .ok v) : g.rows[index.position.toNat]? = some v.row := by
  rw [rows, List.getElem?_map, Array.getElem?_toList, vertex_eq_ok.mp h]
  rfl

theorem getElem?_ids {g : Graph} {index : VertexIndex} {v : Vertex}
    (h : g.vertex index = .ok v) : g.ids[index.position.toNat]? = some v.id := by
  rw [ids, List.getElem?_map, getElem?_rows h]
  rfl

theorem getElem?_ids_eq_some {g : Graph} {index : VertexIndex} {id : ElementId} :
    g.ids[index.position.toNat]? = some id ↔ ∃ v, g.vertex index = .ok v ∧ v.id = id := by
  constructor
  · intro h
    have hlt := (List.getElem?_eq_some_iff.mp h).1
    rw [length_ids] at hlt
    have hv := vertex_eq_ok.mpr (Array.getElem?_eq_getElem hlt)
    rw [getElem?_ids hv] at h
    exact ⟨_, hv, Option.some.inj h⟩
  · rintro ⟨v, hv, rfl⟩
    exact getElem?_ids hv

theorem row_mem {g : Graph} {index : VertexIndex} {v : Vertex} (h : g.vertex index = .ok v) :
    v.row ∈ g.rows :=
  List.mem_of_getElem? (getElem?_rows h)

theorem mem_ids {g : Graph} {index : VertexIndex} {v : Vertex} (h : g.vertex index = .ok v) :
    v.id ∈ g.ids :=
  List.mem_of_getElem? (getElem?_ids h)

theorem idAt_eq {g : Graph} {index : VertexIndex} {v : Vertex} (h : g.vertex index = .ok v) :
    g.idAt index = v.id := by
  rw [idAt, getElem?_ids h]
  rfl

theorem idAt_mem {g : Graph} {index : VertexIndex} {v : Vertex} (h : g.vertex index = .ok v) :
    g.idAt index ∈ g.ids :=
  idAt_eq h ▸ mem_ids h

theorem rows_pushVertex (g : Graph) (id : ElementId) (label : String) (properties : Properties) :
    (g.pushVertex id label properties).rows = g.rows ++ [⟨label, id, properties⟩] := by
  rw [rows, pushVertex, Array.toList_push, List.map_append, ← rows]
  rfl

theorem ids_pushVertex (g : Graph) (id : ElementId) (label : String) (properties : Properties) :
    (g.pushVertex id label properties).ids = g.ids ++ [id] := by
  rw [ids, rows_pushVertex, List.map_append, ← ids]
  rfl

private theorem map_row_modify (vertices : Array Vertex) (i : Nat) {f : Vertex → Vertex}
    (hf : ∀ v, (f v).row = v.row) :
    (vertices.modify i f).toList.map Vertex.row = vertices.toList.map Vertex.row := by
  refine List.ext_getElem? fun j ↦ ?_
  rw [List.getElem?_map, List.getElem?_map, Array.getElem?_toList, Array.getElem?_toList,
    Array.getElem?_modify]
  split
  · rw [Option.map_map]
    exact congrArg (Option.map · _) (funext hf)
  · rfl

theorem rows_register (g : Graph) (label : String) (source target : VertexIndex)
    (properties : Properties) : (g.register label source target properties).rows = g.rows := by
  rw [rows, register]
  refine (map_row_modify _ _ ?_).trans (map_row_modify _ _ ?_) <;> exact fun _ ↦ rfl

theorem ids_register (g : Graph) (label : String) (source target : VertexIndex)
    (properties : Properties) : (g.register label source target properties).ids = g.ids := by
  rw [ids, rows_register, ← ids]

theorem size_vertices_register (g : Graph) (label : String) (source target : VertexIndex)
    (properties : Properties) :
    (g.register label source target properties).vertices.size = g.vertices.size := by
  rw [← length_ids, ids_register, length_ids]

/-! ## The index -/

/-- Index and vertices agree on the places of ids. -/
structure Indexed (g : Graph) : Prop where
  /-- Every vertex has a place. -/
  vertices_le : g.vertices.size ≤ arenaCapacity
  /-- An id is found at its place, and nothing else is found. -/
  find?_eq_some_iff : ∀ {id index}, g.find? id = some index
    ↔ g.ids[index.position.toNat]? = some id
  /-- There are as many ids in the index as there are vertices. -/
  size_index : g.index.size = g.vertices.size

theorem hasId_eq_false {g : Graph} {id : ElementId} : g.hasId id = false ↔ g.find? id = none := by
  rw [hasId, Table.contains_eq_false, find?, Table.get?_eq_none]

/-- The id of a new vertex is found at its place, and all else is found where it was. -/
theorem find?_pushVertex (g : Graph) (id other : ElementId) (label : String)
    (properties : Properties) :
    (g.pushVertex id label properties).find? other
      = if other = id then some ⟨UInt32.ofNat g.vertices.size⟩ else g.find? other := by
  rw [find?, pushVertex, Table.get?_update, ← find?]
  simp only [beq_iff_eq]

theorem hasId_pushVertex {g : Graph} {id other : ElementId} {label : String}
    {properties : Properties} :
    (g.pushVertex id label properties).hasId other = true ↔ other = id ∨ g.hasId other = true := by
  rw [← Bool.not_eq_false, hasId_eq_false, find?_pushVertex, ← Bool.not_eq_false (g.hasId other),
    hasId_eq_false]
  by_cases h : other = id <;> simp [h]

namespace Indexed

theorem empty : Indexed .empty where
  vertices_le := Nat.zero_le _
  find?_eq_some_iff := ⟨nofun, nofun⟩
  size_index := rfl

variable {g : Graph} {id : ElementId} {index : VertexIndex} {v : Vertex}

/-- A vertex is filed under an id that the index did not have. -/
theorem pushVertex (hg : g.Indexed) (hroom : g.vertices.size < arenaCapacity)
    (hnew : g.hasId id = false) (label : String) (properties : Properties) :
    (g.pushVertex id label properties).Indexed where
  vertices_le := by rw [Graph.pushVertex, Array.size_push]; exact hroom
  find?_eq_some_iff {other index} := by
    have hlast : (⟨UInt32.ofNat g.vertices.size⟩ : VertexIndex) = index
        ↔ g.vertices.size = index.position.toNat := by
      rw [← position_toNat_inj, UInt32.toNat_ofNat_of_lt' hroom]
    rw [find?_pushVertex, ids_pushVertex, List.getElem?_append, length_ids]
    by_cases hold : index.position.toNat < g.vertices.size
    · rw [if_pos hold]
      split
      · -- the new id is not found at an old place, and no old vertex has it
        rename_i hid
        subst hid
        rw [Option.some.injEq, hlast, ← hg.find?_eq_some_iff, hasId_eq_false.mp hnew]
        exact ⟨fun heq ↦ absurd hold (heq ▸ Nat.lt_irrefl _), nofun⟩
      · exact hg.find?_eq_some_iff
    · rw [if_neg hold, List.getElem?_singleton]
      split
      · rename_i hid
        rw [Option.some.injEq, hlast, hid]
        split
        · exact ⟨fun _ ↦ rfl, fun _ ↦ by omega⟩
        · exact ⟨fun _ ↦ by omega, nofun⟩
      · -- an old id is found at an old place only
        rename_i hid
        rw [hg.find?_eq_some_iff, List.getElem?_eq_none (by rw [length_ids]; omega)]
        refine ⟨nofun, fun h ↦ ?_⟩
        split at h
        · exact absurd (Option.some.inj h).symm hid
        · cases h
  size_index := by
    rw [Graph.pushVertex, Array.size_push,
      Table.size_update_of_not_mem (Table.contains_eq_false.mp hnew), hg.size_index]

theorem register (hg : g.Indexed) (label : String) (source target : VertexIndex)
    (properties : Properties) : (g.register label source target properties).Indexed where
  vertices_le := by rw [size_vertices_register]; exact hg.vertices_le
  find?_eq_some_iff := by rw [ids_register]; exact hg.find?_eq_some_iff
  size_index := by rw [size_vertices_register]; exact hg.size_index

theorem size_index_lt (hg : g.Indexed) : g.index.size < UInt64.size := by
  rw [hg.size_index]
  exact Nat.lt_of_le_of_lt hg.vertices_le (by decide)

/-! ### Looking ids up -/

theorem vertex_of_find? (hg : g.Indexed) (h : g.find? id = some index) :
    ∃ v, g.vertex index = .ok v ∧ v.id = id :=
  getElem?_ids_eq_some.mp (hg.find?_eq_some_iff.mp h)

theorem find?_of_vertex (hg : g.Indexed) (h : g.vertex index = .ok v) :
    g.find? v.id = some index :=
  hg.find?_eq_some_iff.mpr (getElem?_ids h)

theorem find?_of_getElem? (hg : g.Indexed) {i : Nat} (h : g.ids[i]? = some id) :
    g.find? id = some ⟨UInt32.ofNat i⟩ ∧ (UInt32.ofNat i).toNat = i := by
  have hlt := (List.getElem?_eq_some_iff.mp h).1
  rw [length_ids] at hlt
  have hplace := UInt32.toNat_ofNat_of_lt' (Nat.lt_of_lt_of_le hlt hg.vertices_le)
  exact ⟨hg.find?_eq_some_iff.mpr (by rwa [hplace]), hplace⟩

theorem exists_find? (hg : g.Indexed) (h : id ∈ g.ids) : ∃ index, g.find? id = some index := by
  obtain ⟨i, hi⟩ := List.mem_iff_getElem?.mp h
  exact ⟨_, (hg.find?_of_getElem? hi).1⟩

theorem find?_eq_none (hg : g.Indexed) : g.find? id = none ↔ id ∉ g.ids := by
  constructor
  · intro hnone hmem
    obtain ⟨index, hindex⟩ := hg.exists_find? hmem
    rw [hnone] at hindex
    cases hindex
  · exact fun hnew ↦ Option.eq_none_iff_forall_ne_some.mpr fun index hindex ↦
      hnew (List.mem_of_getElem? (hg.find?_eq_some_iff.mp hindex))

theorem hasId_eq_true (hg : g.Indexed) : g.hasId id = true ↔ id ∈ g.ids := by
  rw [← Bool.not_eq_false, hasId_eq_false, hg.find?_eq_none, not_not]

theorem hasId_iff_vertex (hg : g.Indexed) :
    g.hasId id = true ↔ ∃ index v, g.vertex index = .ok v ∧ v.id = id := by
  rw [hg.hasId_eq_true]
  constructor
  · intro h
    obtain ⟨index, hindex⟩ := hg.exists_find? h
    exact ⟨index, hg.vertex_of_find? hindex⟩
  · rintro ⟨index, v, hv, rfl⟩
    exact mem_ids hv

theorem index_inj (hg : g.Indexed) {i j : VertexIndex} {v w : Vertex} (hi : g.vertex i = .ok v)
    (hj : g.vertex j = .ok w) (h : v.id = w.id) : i = j := by
  have hfind := hg.find?_of_vertex hi
  rw [h, hg.find?_of_vertex hj] at hfind
  exact (Option.some.inj hfind).symm

theorem nodup_ids (hg : g.Indexed) : g.ids.Nodup := by
  rw [List.nodup_iff_getElem?_ne_getElem?]
  intro i j hij hj heq
  obtain ⟨hfind, hplace⟩ := hg.find?_of_getElem? (List.getElem?_eq_getElem hj)
  obtain ⟨hfind', hplace'⟩ := hg.find?_of_getElem? (heq.trans (List.getElem?_eq_getElem hj))
  rw [hfind, Option.some.injEq, ← position_toNat_inj, hplace, hplace'] at hfind'
  exact Nat.ne_of_gt hij hfind'

end Indexed

/-- The index agrees with the vertices, whatever mutations were tried. -/
theorem Reachable.indexed {g : Graph} (h : g.Reachable) : g.Indexed := by
  refine h.induct .empty ?_ ?_ ?_
  · exact fun g number hg ↦ ⟨hg.vertices_le, hg.find?_eq_some_iff, hg.size_index⟩
  · exact fun g id label properties hroom hnew hg ↦
      hg.pushVertex hroom (hnew hg.size_index_lt) label properties
  · exact fun g label source target properties _ _ _ hg ↦
      hg.register label source target properties

/-! ## Edges -/

/-- The id of an edge is one more than its place. -/
theorem Reachable.edge_id {g : Graph} (h : g.Reachable) {index : EdgeIndex} {edge : Edge}
    (hedge : g.edge index = .ok edge) :
    edge.id = .number (UInt64.ofNat (index.position.toNat + 1)) := by
  have hall : ∀ (i : Nat) (edge : Edge), g.edges[i]? = some edge →
      edge.id = .number (UInt64.ofNat (i + 1)) := by
    refine h.induct (P := fun g ↦ ∀ (i : Nat) (edge : Edge), g.edges[i]? = some edge →
      edge.id = .number (UInt64.ofNat (i + 1))) ?_ ?_ ?_ ?_
    · intro i edge hi
      simp [Graph.empty] at hi
    · exact fun g number hg ↦ hg
    · exact fun g id label properties hroom hnew hg ↦ hg
    · intro g label source target properties hs ht hroom hg i edge hi
      rw [register, Array.getElem?_push] at hi
      split at hi
      · rename_i hlast
        rw [← Option.some.inj hi, hlast]
      · exact hg i edge hi
  exact hall index.position.toNat edge (edge_eq_ok.mp hedge)

end Graph

end BookmarkGraph
