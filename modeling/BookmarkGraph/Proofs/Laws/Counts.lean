import BookmarkGraph.Proofs.Enumeration
import BookmarkGraph.Proofs.Laws.Hops

/-!
# Counts over the whole graph

A graph counts its edges and vertices by label without looking at who is joined to whom. A traversal
over all vertices counts the same edges one vertex after the other. The two agree because the edges
at the vertices are a partition of the arena: every edge has one vertex at either end, and that
vertex is among those listed.

## Multiplicities

Labels may be given to a hop more than once, so an edge is not just walked or passed over:
`walks labels l` is the number of times. `Graph.perm_walked` says that what a hop walks at a vertex
is the edges of the arena that have an end there, each one so many times. Counting what is walked is
therefore summing over edges, and the sum over the edges from one vertex to another does not depend
on the end at which one stands.
-/

namespace BookmarkGraph

open Query

/-- How often a hop along edges of the given labels walks an edge of one label. -/
def walks (labels : List String) (label : String) : Nat :=
  if labels = [] then 1 else labels.count label

/-! ## Counts per label -/

namespace Graph

/-- The count of a label, zero if the label is not among those counted. -/
def countOf (counts : List (String × Nat)) (label : String) : Nat := (counts.lookup label).getD 0

theorem countOf_cons (l : String) (n : Nat) (counts : List (String × Nat)) (label : String) :
    countOf ((l, n) :: counts) label = if label = l then n else countOf counts label := by
  rw [countOf, List.lookup_cons]
  by_cases h : label = l
  · rw [if_pos h, beq_iff_eq.mpr h]
    rfl
  · rw [if_neg h, beq_eq_false_iff_ne.mpr h]
    rfl

theorem countOf_of_lt {label : String} {counts : List (String × Nat)}
    (h : ∀ key ∈ counts.map (·.1), label < key) : countOf counts label = 0 := by
  induction counts with
  | nil => rfl
  | cons count rest ih =>
    have hlt : label < count.1 := h _ List.mem_cons_self
    rw [countOf_cons, if_neg fun heq : label = count.1 ↦ String.lt_irrefl count.1 (heq ▸ hlt)]
    exact ih fun key hkey ↦ h key (List.mem_cons_of_mem _ hkey)

theorem countOf_countLabel (label other : String) {counts : List (String × Nat)}
    (h : (counts.map (·.1)).Pairwise (· < ·)) :
    countOf (countLabel label counts) other
      = countOf counts other + if label = other then 1 else 0 := by
  induction counts with
  | nil =>
    rw [countLabel, countOf_cons]
    simp only [eq_comm (a := other)]
    exact (Nat.zero_add _).symm
  | cons count rest ih =>
    obtain ⟨l, n⟩ := count
    obtain ⟨hfirst, hrest⟩ := List.pairwise_cons.mp h
    rw [countLabel]
    split
    · -- the label is new, and smaller than every label that is counted
      rename_i hlt
      rw [countOf_cons]
      by_cases heq : other = label
      · have hsmaller : ∀ key ∈ ((l, n) :: rest).map (·.1), label < key := by
          rintro key hkey
          rcases List.mem_cons.mp hkey with rfl | hkey
          · exact hlt
          · exact String.lt_trans hlt (hfirst key hkey)
        rw [if_pos heq, if_pos heq.symm, heq, countOf_of_lt hsmaller]
      · rw [if_neg heq, if_neg (Ne.symm heq), Nat.add_zero]
    · split
      · rename_i heq
        rw [countOf_cons, countOf_cons, heq]
        by_cases hother : other = l
        · rw [if_pos hother, if_pos hother, if_pos hother.symm]
        · rw [if_neg hother, if_neg hother, if_neg (Ne.symm hother), Nat.add_zero]
      · rename_i hne
        rw [countOf_cons, countOf_cons, ih hrest]
        by_cases hother : other = l
        · rw [if_pos hother, if_pos hother, hother, if_neg hne, Nat.add_zero]
        · rw [if_neg hother, if_neg hother]

theorem countOf_labelCounts (labels : List String) (label : String) :
    countOf (labelCounts labels) label = labels.count label := by
  induction labels using List.reverseRecOn with
  | nil => rfl
  | append_singleton labels last ih =>
    rw [labelCounts_append, countOf_countLabel last label (pairwise_labelCounts labels), ih,
      List.count_append, List.count_singleton]
    simp only [beq_iff_eq]

end Graph

/-! ## Partitions of a list -/

section Lists

variable {α κ : Type} [DecidableEq κ]

/-- The parts of a list by a key are a partition of it, if no key is given twice and none is
missing. -/
theorem perm_flatMap_filter {key : α → κ} {keys : List κ} (hkeys : keys.Nodup) {xs : List α}
    (hxs : ∀ x ∈ xs, key x ∈ keys) :
    (keys.flatMap fun k ↦ xs.filter fun x ↦ key x = k).Perm xs := by
  induction keys generalizing xs with
  | nil =>
    rw [List.eq_nil_iff_forall_not_mem.mpr fun x hx ↦ List.not_mem_nil (hxs x hx)]
    exact List.Perm.refl _
  | cons k keys ih =>
    obtain ⟨hnew, hkeys⟩ := List.nodup_cons.mp hkeys
    -- the other parts are parts of what the first one leaves over
    set left := xs.filter fun x ↦ !decide (key x = k) with hleft
    have hparts : (keys.flatMap fun k' ↦ xs.filter fun x ↦ key x = k')
        = keys.flatMap fun k' ↦ left.filter fun x ↦ key x = k' := by
      refine List.flatMap_congr fun k' hk' ↦ ?_
      rw [hleft, List.filter_filter]
      refine List.filter_congr fun x _ ↦ ?_
      by_cases hx : key x = k'
      · have hne : key x ≠ k := fun heq ↦ hnew (heq ▸ hx ▸ hk')
        simp [hx, hx ▸ hne]
      · simp [hx]
    have hcovered : ∀ x ∈ left, key x ∈ keys := by
      intro x hx
      obtain ⟨hmem, hne⟩ := List.mem_filter.mp hx
      rcases List.mem_cons.mp (hxs x hmem) with heq | hmem
      · simp [heq] at hne
      · exact hmem
    rw [List.flatMap_cons, hparts]
    exact ((ih hkeys hcovered).append_left _).trans (List.filter_append_perm _ xs)

theorem count_flatMap_replicate [BEq α] [LawfulBEq α] (f : α → Nat) (xs : List α) (a : α) :
    (xs.flatMap fun x ↦ List.replicate (f x) x).count a = xs.count a * f a := by
  induction xs with
  | nil => exact (Nat.zero_mul _).symm
  | cons x xs ih =>
    rw [List.flatMap_cons, List.count_append, ih, List.count_replicate, List.count_cons,
      Nat.add_mul, Nat.add_comm]
    by_cases h : x = a
    · simp [h]
    · simp [h]

theorem countP_flatMap_replicate (f : α → Nat) (p : α → Bool) (xs : List α) :
    (xs.flatMap fun x ↦ List.replicate (f x) x).countP p = ((xs.filter p).map f).sum := by
  induction xs with
  | nil => rfl
  | cons x xs ih =>
    rw [List.flatMap_cons, List.countP_append, ih, List.countP_replicate]
    by_cases h : p x = true
    · rw [if_pos h, List.filter_cons_of_pos h, List.map_cons, List.sum_cons]
    · rw [if_neg h, List.filter_cons_of_neg h, Nat.zero_add]

end Lists

/-! ## What is walked -/

namespace Graph

variable {g : Graph} {index : VertexIndex} {v : Vertex}

theorem nodup_incident (hsize : g.edges.size ≤ arenaCapacity) (which : EdgeEnd)
    (index : VertexIndex) : (g.incident which index).Nodup :=
  (nodup_map_fst_incident hsize which index).of_map

/-- A hop walks the edges that have an end at the vertex, each as often as its label asks for. -/
theorem perm_walked (hg : g.WellFormed) (hv : g.vertex index = .ok v) (which : EdgeEnd)
    (labels : List String) :
    (g.walked which index labels).Perm
      ((g.incident which index).flatMap fun e ↦ List.replicate (walks labels e.2.label) e) := by
  refine List.perm_iff_count.mpr ?_
  rintro ⟨e, edge⟩
  rw [count_flatMap_replicate]
  by_cases hmem : (e, edge) ∈ g.incident which index
  · obtain ⟨hedge, hend⟩ := (mem_incident hg.edges_le).mp hmem
    rw [count_walked hg hv hedge hend, ← walks,
      List.count_eq_one_of_mem (nodup_incident hg.edges_le which index) hmem, Nat.one_mul]
  · have hnot : (e, edge) ∉ g.walked which index labels := fun h ↦
      hmem ((mem_incident hg.edges_le).mpr (mem_walked hg hv h))
    rw [List.count_eq_zero_of_not_mem hmem, List.count_eq_zero_of_not_mem hnot, Nat.zero_mul]

theorem countP_walked (hg : g.WellFormed) (hv : g.vertex index = .ok v) (which : EdgeEnd)
    (labels : List String) (p : EdgeIndex × Edge → Bool) :
    (g.walked which index labels).countP p
      = (((g.incident which index).filter p).map fun e ↦ walks labels e.2.label).sum := by
  rw [(perm_walked hg hv which labels).countP_eq, countP_flatMap_replicate]

theorem length_walked (hg : g.WellFormed) (hv : g.vertex index = .ok v) (which : EdgeEnd)
    (labels : List String) :
    (g.walked which index labels).length
      = ((g.incident which index).map fun e ↦ walks labels e.2.label).sum := by
  have hall := countP_walked hg hv which labels fun _ ↦ true
  rwa [List.countP_true, List.filter_true] at hall

/-- The second of two vertices is met from the first, along outgoing edges, as often as the first is
met from the second along incoming ones. -/
theorem count_target_eq_count_source (hg : g.WellFormed) {a b : VertexIndex} {v w : Vertex}
    (hv : g.vertex a = .ok v) (hw : g.vertex b = .ok w) (labels : List String) :
    ((g.walked .source a labels).map fun e ↦ Element.vertex e.2.target).count (.vertex b)
      = ((g.walked .target b labels).map fun e ↦ Element.vertex e.2.source).count (.vertex a) := by
  -- either side sums over the edges from `a` to `b`
  have hedges : (g.incident .source a).filter (fun e ↦ Element.vertex e.2.target == .vertex b)
      = (g.incident .target b).filter fun e ↦ Element.vertex e.2.source == .vertex a := by
    rw [incident, incident, List.filter_filter, List.filter_filter]
    refine List.filter_congr fun e _ ↦ ?_
    rw [Bool.and_comm, Bool.eq_iff_iff]
    simp only [Bool.and_eq_true, beq_iff_eq, Element.vertex.injEq, decide_eq_true_eq]
    exact Iff.rfl
  rw [List.count_eq_countP, List.count_eq_countP, List.countP_map, List.countP_map,
    countP_walked hg hv, countP_walked hg hw]
  exact congrArg (fun edges : List (EdgeIndex × Edge) ↦
    (edges.map fun e ↦ walks labels e.2.label).sum) hedges

/-! ## All vertices together -/

/-- The vertices share out the edges of the arena by either end. -/
theorem perm_incident (hg : g.WellFormed) (hroom : g.vertices.size < arenaCapacity)
    (which : EdgeEnd) : (g.vertexIndices.flatMap (g.incident which)).Perm g.indexedEdges := by
  refine perm_flatMap_filter g.nodup_vertexIndices fun e he ↦ mem_vertexIndices hroom ?_
  have hedge := edge_eq_ok.mp ((mem_indexedEdges hg.edges_le).mp he)
  exact hg.endpoint_lt e.2 (Array.mem_of_getElem? hedge) which

/-- Walking the edges of one side of every vertex is walking the edges of the graph. -/
theorem sum_length_walked (hg : g.WellFormed) (hroom : g.vertices.size < arenaCapacity)
    (which : EdgeEnd) (labels : List String) :
    (g.vertexIndices.map fun index ↦ (g.walked which index labels).length).sum
      = (g.edges.toList.map fun edge ↦ walks labels edge.label).sum := by
  have hlength : ∀ index ∈ g.vertexIndices, (g.walked which index labels).length
      = ((g.incident which index).map fun e ↦ walks labels e.2.label).sum := by
    intro index hindex
    obtain ⟨v, hv⟩ := has_vertexIndices hroom.le index hindex
    exact length_walked hg hv which labels
  calc (g.vertexIndices.map fun index ↦ (g.walked which index labels).length).sum
      = (g.vertexIndices.map fun index ↦
          ((g.incident which index).map fun e ↦ walks labels e.2.label).sum).sum :=
        congrArg List.sum (List.map_congr_left hlength)
    _ = ((g.vertexIndices.flatMap (g.incident which)).map fun e ↦ walks labels e.2.label).sum := by
        rw [List.map_flatMap, List.flatMap, List.sum_flatten, List.map_map]
        rfl
    _ = (g.indexedEdges.map fun e ↦ walks labels e.2.label).sum :=
        ((perm_incident hg hroom which).map _).sum_eq
    _ = (g.edges.toList.map fun edge ↦ walks labels edge.label).sum := by
        rw [← map_snd_indexedEdges, List.map_map]
        rfl

end Graph

/-! ## Traversals from all vertices -/

theorem sum_walks_singleton (label : String) (labels : List String) :
    (labels.map (walks [label])).sum = labels.count label := by
  induction labels with
  | nil => rfl
  | cons l labels ih =>
    rw [List.map_cons, List.sum_cons, ih, walks, if_neg (List.cons_ne_nil _ _),
      List.count_singleton, List.count_cons, BEq.comm, Nat.add_comm]

theorem sum_walks_nil (labels : List String) : (labels.map (walks [])).sum = labels.length := by
  induction labels with
  | nil => rfl
  | cons l labels ih =>
    rw [List.map_cons, List.sum_cons, ih, walks, if_pos rfl, List.length_cons, Nat.add_comm]

theorem sum_walks_label (g : Graph) (label : String) :
    (g.edges.toList.map fun edge ↦ walks [label] edge.label).sum
      = Graph.countOf g.stats.edgeLabels label := by
  rw [Graph.stats, Graph.countOf_labelCounts, ← sum_walks_singleton, List.map_map]
  rfl

theorem sum_walks_edges (g : Graph) :
    (g.edges.toList.map fun edge ↦ walks [] edge.label).sum = g.edgeCount := by
  have hall := sum_walks_nil (g.edges.toList.map (·.label))
  rwa [List.map_map, List.length_map, Array.length_toList] at hall

section Traversals

variable {g : Graph}

theorem Hop.items_bothEdges (hg : g.WellFormed) {index : VertexIndex} {v : Vertex}
    (hv : g.vertex index = .ok v) (labels : List String) :
    (Hop.mk .edge .either labels).items g (.ok (.vertex index))
      = (((g.walked .source index labels).map fun e ↦ Element.edge e.1)
        ++ (g.walked .target index labels).map fun e ↦ Element.edge e.1).map .ok := by
  rw [items_vertex (Graph.edgesOf_either hv labels), List.map_append, List.map_append]
  exact congrArg₂ (· ++ ·) (Graph.map_arrive hg hv fun _ _ _ _ ↦ rfl)
    (Graph.map_arrive hg hv fun _ _ _ _ ↦ rfl)

/-- What is counted behind one hop from all vertices, when the hop meets elements only. -/
theorem count_hop_vertices (hroom : g.vertices.size < Graph.arenaCapacity) {hop : Hop}
    {met : VertexIndex → List Element}
    (hmet : ∀ index v, g.vertex index = .ok v →
      hop.items g (.ok (.vertex index)) = (met index).map .ok) :
    ((build g [.vertices, .step (.hop hop)]).count g).1
      = .ok (g.vertexIndices.map fun index ↦ (met index).length).sum := by
  have hdenote : denote g [.hop hop] (g.vertexIndices.map .vertex)
      = (g.vertexIndices.flatMap met).map .ok := by
    change (((g.vertexIndices.map Element.vertex).map Except.ok).flatMap (hop.items g)) = _
    rw [List.map_map, List.flatMap_map, List.map_flatMap]
    refine List.flatMap_congr fun index hindex ↦ ?_
    obtain ⟨v, hv⟩ := Graph.has_vertexIndices hroom.le index hindex
    exact hmet index v hv
  have hsource : Call.vertices.source g = .ok (g.vertexIndices.map .vertex) := rfl
  have hcount := count_build_start hsource [.hop hop]
  rw [hdenote, collect_map_ok] at hcount
  rw [← List.length_flatMap]
  exact hcount

theorem count_walked_edges (hg : g.WellFormed) (hroom : g.vertices.size < Graph.arenaCapacity)
    (which : EdgeEnd) (labels : List String) :
    ((build g [.vertices, .step (.hop ⟨.edge, which.direction, labels⟩)]).count g).1
      = .ok (g.edges.toList.map fun edge ↦ walks labels edge.label).sum := by
  rw [count_hop_vertices hroom fun index v hv ↦ Hop.items_edges hg hv which labels]
  simp only [List.length_map, Graph.sum_length_walked hg hroom]

theorem count_bothEdges (hg : g.WellFormed) (hroom : g.vertices.size < Graph.arenaCapacity)
    (labels : List String) :
    ((build g [.vertices, .step (.bothEdges labels)]).count g).1
      = .ok (2 * (g.edges.toList.map fun edge ↦ walks labels edge.label).sum) := by
  refine (count_hop_vertices hroom fun index v hv ↦ Hop.items_bothEdges hg hv labels).trans ?_
  simp only [List.length_append, List.length_map, List.sum_map_add,
    Graph.sum_length_walked hg hroom, Nat.two_mul]

theorem count_hasLabel (hroom : g.vertices.size < Graph.arenaCapacity) (label : String) :
    ((build g [.vertices, .step (.hasLabel [label])]).count g).1
      = .ok (Graph.countOf g.stats.vertexLabels label) := by
  have hdenote : denote g [.identity, .hasLabel [label]] (g.vertexIndices.map .vertex)
      = vertexItems (g.verticesWithLabel label) := by
    rw [denote_identity, ← Graph.filter_labelAt_vertexIndices hroom.le label,
      ← items_hasLabel (Graph.has_vertexIndices hroom.le) label]
    exact congrArg ((Step.hasLabel [label]).items g) List.map_map
  rw [Graph.stats, Graph.countOf_labelCounts, ← Graph.length_verticesWithLabel hroom label]
  exact count_of_denote (outcome_build_vertices [.hasLabel [label]]) (List.cons_ne_nil _ _) hdenote

end Traversals

/-- **Counts over the whole graph agree with its traversals, and adjacency is symmetric.** Take a
reachable graph whose arena of vertices is not full. The edges that carry a label are as many as are
met when the outgoing edges of all vertices with this label are asked for, or the incoming ones, and
half as many as are met on both sides. The vertices that carry a label are as many as a traversal
over all vertices keeps by it, and all outgoing edges are all edges. Of two vertices of any
reachable graph, the second is met from the first along outgoing edges as often as the first is met
from the second along incoming edges of the same labels. -/
theorem Graph.Reachable.counts_agree {g : Graph} (h : g.Reachable) :
    (g.vertexCount < arenaCapacity →
      let met := fun step : Step ↦ ((build g [.vertices, .step step]).count g).1
      (∀ label,
        met (.outEdges [label]) = .ok (countOf g.stats.edgeLabels label) ∧
        met (.inEdges [label]) = .ok (countOf g.stats.edgeLabels label) ∧
        met (.bothEdges [label]) = .ok (2 * countOf g.stats.edgeLabels label) ∧
        met (.hasLabel [label]) = .ok (countOf g.stats.vertexLabels label)) ∧
      met (.outEdges []) = .ok g.edgeCount) ∧
    ∀ labels a b v w, g.vertex a = .ok v → g.vertex b = .ok w →
      ∃ fromFirst fromSecond,
        ((build g [.ofIds [v.id], .step (.out labels)]).toList g).1 = .ok fromFirst ∧
        ((build g [.ofIds [w.id], .step (.into labels)]).toList g).1 = .ok fromSecond ∧
        fromFirst.count (.vertex b) = fromSecond.count (.vertex a) := by
  have hwell := h.wellFormed
  refine ⟨fun hroom ↦ ?_, fun labels a b v w hv hw ↦ ?_⟩
  · refine ⟨fun label ↦ ⟨?_, ?_, ?_, ?_⟩, ?_⟩
    · rw [← sum_walks_label]
      exact count_walked_edges hwell hroom .source [label]
    · rw [← sum_walks_label]
      exact count_walked_edges hwell hroom .target [label]
    · rw [← sum_walks_label]
      exact count_bothEdges hwell hroom [label]
    · exact count_hasLabel hroom label
    · rw [← sum_walks_edges]
      exact count_walked_edges hwell hroom .source []
  · exact ⟨_, _, h.toList_hop hv (Hop.items_ends hwell hv .source labels),
      h.toList_hop hw (Hop.items_ends hwell hw .target labels),
      count_target_eq_count_source hwell hv hw labels⟩

namespace Graph

/-- Three edges of one label, among them a loop and two that are parallel, and one of another label,
which is asked for twice from one vertex to the other and back. -/
theorem counts_agree_tangled :
    let met := fun step : Step ↦ ((build tangled [.vertices, .step step]).count tangled).1
    tangled.Reachable ∧ tangled.vertexCount < arenaCapacity ∧
      met (.outEdges ["links"]) = .ok 3 ∧ met (.inEdges ["links"]) = .ok 3 ∧
      met (.bothEdges ["links"]) = .ok 6 ∧ met (.outEdges ["none"]) = .ok 0 ∧
      met (.hasLabel ["page"]) = .ok 2 ∧ met (.outEdges []) = .ok 4 ∧
      ∃ v w, tangled.vertex ⟨0⟩ = .ok v ∧ tangled.vertex ⟨1⟩ = .ok w ∧
        ∃ fromFirst fromSecond,
          ((build tangled [.ofIds [v.id], .step (.out ["cites", "links", "cites"])]).toList
            tangled).1 = .ok fromFirst ∧
          ((build tangled [.ofIds [w.id], .step (.into ["cites", "links", "cites"])]).toList
            tangled).1 = .ok fromSecond ∧
          fromFirst.count (.vertex ⟨1⟩) = fromSecond.count (.vertex ⟨0⟩) := by
  intro met
  have hcount : tangled.vertexCount = 2 := by decide +kernel
  have hroom : tangled.vertexCount < arenaCapacity := by
    rw [hcount]
    decide
  obtain ⟨hcounts, hadjacent⟩ := reachable_tangled.counts_agree
  obtain ⟨hlabels, hall⟩ := hcounts hroom
  obtain ⟨hout, hin, hboth, -⟩ := hlabels "links"
  obtain ⟨hnone, -⟩ := hlabels "none"
  obtain ⟨-, -, -, hpages⟩ := hlabels "page"
  have hsize : 1 < tangled.vertices.size := by decide +kernel
  have hv : tangled.vertex ⟨0⟩ = .ok tangled.vertices[0] :=
    vertex_eq_ok.mpr (Array.getElem?_eq_getElem (Nat.lt_of_succ_lt hsize))
  have hw : tangled.vertex ⟨1⟩ = .ok tangled.vertices[1] :=
    vertex_eq_ok.mpr (Array.getElem?_eq_getElem hsize)
  exact ⟨reachable_tangled, hroom, hout.trans (by decide +kernel), hin.trans (by decide +kernel),
    hboth.trans (by decide +kernel), hnone.trans (by decide +kernel),
    hpages.trans (by decide +kernel), hall.trans (by decide +kernel), _, _, hv, hw,
    hadjacent ["cites", "links", "cites"] ⟨0⟩ ⟨1⟩ _ _ hv hw⟩

end Graph

end BookmarkGraph
