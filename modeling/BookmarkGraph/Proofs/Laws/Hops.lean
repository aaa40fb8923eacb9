import BookmarkGraph.Proofs.Graph.Ids
import BookmarkGraph.Proofs.Laws.Context
import Mathlib.Data.List.Count

/-!
# Hops to vertices and hops to edges

There are three ways across an edge: a hop to the vertices behind the edges of one side, a hop to
these edges and from there to one of their ends, and a hop along both sides, which asks for the end
opposite to where it stands. They agree because the edges on a side of a vertex have that end there.
On a loop both ends are the vertex, so the opposite end is the vertex again, and the loop is met on
each of the two sides.

The edges that a hop walks are those of the labels that it is given, label by label. A label that is
given twice is walked twice, on either side; without labels every edge of the side is walked once.
-/

namespace BookmarkGraph

open Query

def EdgeEnd.direction : EdgeEnd → Direction
  | .source => .outgoing
  | .target => .incoming

/-! ## One hop, or two steps -/

section Steps

variable {g : Graph} {which : EdgeEnd} {labels : List String} {items : List Item}

theorem ElementStep.items_endpoint (g : Graph) (which : EdgeEnd) (labels : List String)
    (index : VertexIndex) (e : EdgeIndex) :
    (ElementStep.endpoint which.other).items g (.ok (.edge e))
      = [(Hop.mk .vertex which.direction labels).arrive g (index, e)] := by
  rw [items, apply, Hop.arrive]
  cases which <;> cases g.edge e <;> rfl

/-- From vertices it is the same to go to the far ends of edges and to go to the edges first. -/
theorem denoteFrom_hop_endpoint (hitems : ∀ x, .ok x ∈ items → x.kind = .vertex) :
    denoteFrom g [.hop ⟨.vertex, which.direction, labels⟩] items
      = denoteFrom g [.hop ⟨.edge, which.direction, labels⟩, .element (.endpoint which.other)]
        items := by
  have hone : ∀ item ∈ items, (Hop.mk .vertex which.direction labels).items g item
      = ((Hop.mk .edge which.direction labels).items g item).flatMap
        ((ElementStep.endpoint which.other).items g) := by
    intro item hitem
    cases item with
    | error e => rfl
    | ok x =>
      cases x with
      | vertex index =>
        rw [Hop.items, Hop.items, Hop.start, Hop.start]
        cases g.edgesOf index which.direction labels with
        | error e => rfl
        | ok edges =>
          change (edges.map fun e ↦ (index, e)).map _
            = ((edges.map fun e ↦ (index, e)).map _).flatMap _
          rw [List.map_map, List.map_map, List.flatMap_map, ← List.flatMap_pure_eq_map]
          exact List.flatMap_congr fun e _ ↦
            (ElementStep.items_endpoint g which labels index e).symm
      | edge _ | id _ | properties _ => cases hitems _ hitem
  rw [denoteFrom, denoteFrom, List.foldl_cons, List.foldl_cons, List.foldl_cons, List.foldl_nil,
    List.foldl_nil, Step.items, Step.items, Step.items, List.flatMap_assoc]
  exact List.flatMap_congr hone

end Steps

/-! ## The edges that a hop walks -/

namespace Graph

variable {g : Graph} {index : VertexIndex} {v : Vertex} {which : EdgeEnd} {labels : List String}
  {e : EdgeIndex} {edge : Edge}

/-- The edge at a place that holds one. -/
def edgeAt (g : Graph) (e : EdgeIndex) : Edge := g.edges[e.position.toNat]?.getD default

/-- The edges that a hop walks on one side of a vertex. -/
def walked (g : Graph) (which : EdgeEnd) (index : VertexIndex) (labels : List String) :
    List (EdgeIndex × Edge) :=
  match g.vertex index with
  | .error _ => []
  | .ok v => ((v.edgesAt which).select labels).map fun e ↦ (e, g.edgeAt e)

theorem edgeAt_eq (h : g.edge e = .ok edge) : g.edgeAt e = edge := by
  rw [edgeAt, edge_eq_ok.mp h]
  rfl

theorem walked_eq (hv : g.vertex index = .ok v) :
    g.walked which index labels
      = ((v.edgesAt which).select labels).map fun e ↦ (e, g.edgeAt e) := by
  rw [walked, hv]

theorem mem_walked (hg : g.WellFormed) (hv : g.vertex index = .ok v)
    (h : (e, edge) ∈ g.walked which index labels) :
    g.edge e = .ok edge ∧ edge.vertexAt which = index := by
  rw [walked_eq hv] at h
  obtain ⟨e, he, heq⟩ := List.mem_map.mp h
  obtain ⟨edge', hedge, hend, -⟩ := (hg.mem_select hv).mp he
  rw [edgeAt_eq hedge] at heq
  obtain ⟨rfl, rfl⟩ := Prod.mk.inj heq
  exact ⟨hedge, hend⟩

/-- An edge stands once in the list of its label, and in no other. -/
theorem count_get (hg : g.WellFormed) (hv : g.vertex index = .ok v) (hedge : g.edge e = .ok edge)
    (hend : edge.vertexAt which = index) (label : String) :
    ((v.edgesAt which).get label).count e = if label = edge.label then 1 else 0 := by
  have hmem : e ∈ (v.edgesAt which).get label ↔ label = edge.label := by
    rw [hg.mem_get hv]
    constructor
    · rintro ⟨edge', hedge', -, rfl⟩
      rw [Except.ok.inj (hedge'.symm.trans hedge)]
    · rintro rfl
      exact ⟨edge, hedge, hend, rfl⟩
  have hnodup : ((v.edgesAt which).get label).Nodup := by
    rw [hg.edgesAt_eq hv, EdgeLists.get_ofEdges]
    exact (nodup_map_fst_incident hg.edges_le which index).sublist (List.filter_sublist.map _)
  split
  · rename_i hlabel
    exact List.count_eq_one_of_mem hnodup (hmem.mpr hlabel)
  · rename_i hlabel
    exact List.count_eq_zero.mpr fun h ↦ hlabel (hmem.mp h)

/-- An edge is selected as often as its label is asked for, and once if every label is. -/
theorem count_select (hg : g.WellFormed) (hv : g.vertex index = .ok v)
    (hedge : g.edge e = .ok edge) (hend : edge.vertexAt which = index) :
    ((v.edgesAt which).select labels).count e
      = if labels = [] then 1 else labels.count edge.label := by
  rw [EdgeLists.select]
  cases labels with
  | nil =>
    have hmem : e ∈ (g.incident which index).map (·.1) :=
      List.mem_map.mpr ⟨(e, edge), (mem_incident hg.edges_le).mpr ⟨hedge, hend⟩, rfl⟩
    rw [List.isEmpty_nil, if_pos rfl, if_pos rfl, hg.edgesAt_eq hv,
      (EdgeLists.all_ofEdges _).count_eq]
    exact List.count_eq_one_of_mem (nodup_map_fst_incident hg.edges_le which index) hmem
  | cons label rest =>
    rw [if_neg (by simp), if_neg (by simp)]
    generalize label :: rest = labels
    induction labels with
    | nil => rfl
    | cons label rest ih =>
      rw [List.flatMap_cons, List.count_append, count_get hg hv hedge hend, ih, List.count_cons,
        Nat.add_comm]
      simp only [beq_iff_eq]

theorem count_walked (hg : g.WellFormed) (hv : g.vertex index = .ok v)
    (hedge : g.edge e = .ok edge) (hend : edge.vertexAt which = index) :
    (g.walked which index labels).count (e, edge)
      = if labels = [] then 1 else labels.count edge.label := by
  have hinj : Function.Injective fun e ↦ (e, g.edgeAt e) := fun _ _ h ↦ (Prod.mk.inj h).1
  rw [← count_select hg hv hedge hend, walked_eq hv, ← edgeAt_eq hedge]
  exact List.count_map_of_injective _ _ hinj e

end Graph

/-! ## What is met from one vertex -/

section Met

variable {g : Graph} {index : VertexIndex} {v : Vertex}

theorem Hop.items_vertex {hop : Hop} {edges : List EdgeIndex}
    (hedges : g.edgesOf index hop.direction hop.labels = .ok edges) :
    hop.items g (.ok (.vertex index)) = edges.map fun e ↦ hop.arrive g (index, e) := by
  rw [items, start, hedges]
  exact List.map_map

theorem Graph.edgesOf_direction (hv : g.vertex index = .ok v) (which : EdgeEnd)
    (labels : List String) :
    g.edgesOf index which.direction labels = .ok ((v.edgesAt which).select labels) := by
  rw [edgesOf, hv]
  cases which <;> rfl

theorem Graph.edgesOf_either (hv : g.vertex index = .ok v) (labels : List String) :
    g.edgesOf index .either labels
      = .ok ((v.edgesAt .source).select labels ++ (v.edgesAt .target).select labels) := by
  rw [edgesOf, hv]
  rfl

/-- What a hop meets on the edges of one side, if it does not miss the vertex there. -/
theorem Graph.map_arrive (hg : g.WellFormed) (hv : g.vertex index = .ok v) {which : EdgeEnd}
    {labels : List String} {hop : Hop} {met : EdgeIndex × Edge → Element}
    (harrive : ∀ e edge, g.edge e = .ok edge → edge.vertexAt which = index →
      hop.arrive g (index, e) = .ok (met (e, edge))) :
    ((v.edgesAt which).select labels).map (fun e ↦ hop.arrive g (index, e))
      = ((g.walked which index labels).map met).map .ok := by
  rw [walked_eq hv, List.map_map, List.map_map]
  refine List.map_congr_left fun e he ↦ ?_
  obtain ⟨edge, hedge, hend, -⟩ := (hg.mem_select hv).mp he
  rw [harrive e edge hedge hend, Function.comp_apply, Function.comp_apply, edgeAt_eq hedge]

theorem Hop.items_edges (hg : g.WellFormed) (hv : g.vertex index = .ok v) (which : EdgeEnd)
    (labels : List String) :
    (Hop.mk .edge which.direction labels).items g (.ok (.vertex index))
      = ((g.walked which index labels).map fun e ↦ .edge e.1).map .ok := by
  rw [items_vertex (Graph.edgesOf_direction hv which labels)]
  exact Graph.map_arrive hg hv fun _ _ _ _ ↦ rfl

theorem Hop.items_ends (hg : g.WellFormed) (hv : g.vertex index = .ok v) (which : EdgeEnd)
    (labels : List String) :
    (Hop.mk .vertex which.direction labels).items g (.ok (.vertex index))
      = ((g.walked which index labels).map fun e ↦ .vertex (e.2.vertexAt which.other)).map .ok := by
  rw [items_vertex (Graph.edgesOf_direction hv which labels)]
  refine Graph.map_arrive hg hv fun e edge hedge _ ↦ ?_
  rw [arrive, hedge]
  cases which <;> rfl

theorem Edge.otherEnd_eq {edge : Edge} {which : EdgeEnd} (h : edge.vertexAt which = index) :
    edge.otherEnd index = edge.vertexAt which.other := by
  rw [otherEnd]
  cases which with
  | source => exact if_pos h
  | target =>
    split
    · -- a loop
      rename_i hsource
      exact Eq.trans h hsource.symm
    · rfl

/-- A hop along both sides meets the far ends on the one side and then those on the other. -/
theorem Hop.items_both (hg : g.WellFormed) (hv : g.vertex index = .ok v) (labels : List String) :
    (Hop.mk .vertex .either labels).items g (.ok (.vertex index))
      = (((g.walked .source index labels).map fun e ↦ Element.vertex e.2.target)
        ++ (g.walked .target index labels).map fun e ↦ Element.vertex e.2.source).map .ok := by
  have hside : ∀ which, ((v.edgesAt which).select labels).map
        (fun e ↦ (Hop.mk .vertex .either labels).arrive g (index, e))
      = ((g.walked which index labels).map fun e ↦ .vertex (e.2.vertexAt which.other)).map .ok := by
    refine fun which ↦ Graph.map_arrive hg hv fun e edge hedge hend ↦ ?_
    rw [arrive, hedge, ← Edge.otherEnd_eq hend]
    rfl
  rw [items_vertex (Graph.edgesOf_either hv labels), List.map_append, hside, hside,
    ← List.map_append]
  rfl

theorem Graph.Reachable.toList_hop (hg : g.Reachable) (hv : g.vertex index = .ok v) {hop : Hop}
    {met : List Element} (hmet : hop.items g (.ok (.vertex index)) = met.map .ok) :
    ((build g [.ofIds [v.id], .step (.hop hop)]).toList g).1 = .ok met := by
  have hfind := hg.indexed.find?_of_vertex hv
  have hsource : (Call.ofIds [v.id]).source g = .ok [.vertex index] := by
    rw [Call.source, List.mapM_cons, getVertex, hfind]
    rfl
  have hdenote : denote g [.hop hop] [.vertex index] = met.map .ok :=
    (List.flatMap_singleton _ _).trans hmet
  rw [← collect_map_ok, ← hdenote]
  exact toList_build_start hsource [.hop hop]

end Met

/-- **Hops to vertices agree with hops to edges.** Take a reachable graph and any labels. Behind
calls that deliver vertices, a hop to the far ends of edges can be replaced by a hop to the edges
and a step to their far ends. From one vertex, a hop along both sides meets what the hop along the
one side meets, followed by what the hop along the other side meets; in either half every edge is
met as often as its label is asked for, once if no label is given, and a loop in both of them. -/
theorem Graph.Reachable.hop_laws {g : Graph} (hg : g.Reachable) (labels : List String) :
    (∀ calls, calls ≠ [] → Delivers g calls .vertex →
      Interchangeable g calls [.out labels] [.outEdges labels, .targets] ∧
      Interchangeable g calls [.into labels] [.inEdges labels, .sources]) ∧
    ∀ index v, g.vertex index = .ok v →
      let met := fun step : Step ↦ ((build g [.ofIds [v.id], .step step]).toList g).1
      let leaving := g.walked .source index labels
      let arriving := g.walked .target index labels
      met (.outEdges labels) = .ok (leaving.map fun e ↦ .edge e.1) ∧
      met (.inEdges labels) = .ok (arriving.map fun e ↦ .edge e.1) ∧
      met (.out labels) = .ok (leaving.map fun e ↦ .vertex e.2.target) ∧
      met (.into labels) = .ok (arriving.map fun e ↦ .vertex e.2.source) ∧
      met (.both labels) = .ok ((leaving.map fun e ↦ .vertex e.2.target)
        ++ arriving.map fun e ↦ .vertex e.2.source) ∧
      (∀ e ∈ leaving, g.edge e.1 = .ok e.2 ∧ e.2.source = index) ∧
      (∀ e ∈ arriving, g.edge e.1 = .ok e.2 ∧ e.2.target = index) ∧
      ∀ e edge, g.edge e = .ok edge → edge.source = index → edge.target = index →
        leaving.count (e, edge) = (if labels = [] then 1 else labels.count edge.label) ∧
        arriving.count (e, edge) = if labels = [] then 1 else labels.count edge.label := by
  have hwell := hg.wellFormed
  refine ⟨fun calls hcalls hdelivers ↦ ⟨?_, ?_⟩, fun index v hv ↦ ⟨?_, ?_, ?_, ?_, ?_,
    fun e ↦ mem_walked hwell hv, fun e ↦ mem_walked hwell hv, fun e edge hedge hsource htarget ↦
      ⟨count_walked hwell hv hedge hsource, count_walked hwell hv hedge htarget⟩⟩⟩
  · exact interchangeable hwell hcalls fun p hp _ ↦
      @denoteFrom_hop_endpoint g .source labels _ fun x ↦ hdelivers p x hp
  · exact interchangeable hwell hcalls fun p hp _ ↦
      @denoteFrom_hop_endpoint g .target labels _ fun x ↦ hdelivers p x hp
  · exact hg.toList_hop hv (Hop.items_edges hwell hv .source labels)
  · exact hg.toList_hop hv (Hop.items_edges hwell hv .target labels)
  · exact hg.toList_hop hv (Hop.items_ends hwell hv .source labels)
  · exact hg.toList_hop hv (Hop.items_ends hwell hv .target labels)
  · exact hg.toList_hop hv (Hop.items_both hwell hv labels)

namespace Graph

/-- Parallel edges and a loop, which are walked without labels, and from all vertices with a label
that is given twice and one that no edge has. -/
theorem hop_laws_tangled :
    let answer := fun (calls : List Call) (steps : List Step) ↦
      ((build tangled (calls ++ steps.map .step)).toList tangled).1
    tangled.Reachable ∧ Delivers tangled [.vertices] .vertex ∧
    answer [.vertices] [.out ["links", "none", "links"], .limit 4]
      = .ok [.vertex ⟨1⟩, .vertex ⟨0⟩, .vertex ⟨1⟩, .vertex ⟨1⟩] ∧
    answer [.vertices] [.outEdges ["links", "none", "links"], .targets, .limit 4]
      = .ok [.vertex ⟨1⟩, .vertex ⟨0⟩, .vertex ⟨1⟩, .vertex ⟨1⟩] ∧
    answer [.ofIds [.number 1]] [.both []]
      = .ok ([.vertex ⟨1⟩, .vertex ⟨0⟩, .vertex ⟨1⟩, .vertex ⟨1⟩] ++ [.vertex ⟨0⟩]) ∧
    ∃ loop, tangled.edge ⟨1⟩ = .ok loop ∧ loop.source = ⟨0⟩ ∧ loop.target = ⟨0⟩ ∧
      (tangled.walked .source ⟨0⟩ []).count (⟨1⟩, loop) = 1 ∧
      (tangled.walked .target ⟨0⟩ []).count (⟨1⟩, loop) = 1 := by
  intro answer
  have hdelivers : Delivers tangled [.vertices] .vertex :=
    @delivers_of_denote _ .vertices [] _ _ rfl (by decide +kernel)
  obtain ⟨hcontext, -⟩ := reachable_tangled.hop_laws ["links", "none", "links"]
  have hedges : answer [.vertices] [.outEdges ["links", "none", "links"], .targets, .limit 4]
      = .ok [.vertex ⟨1⟩, .vertex ⟨0⟩, .vertex ⟨1⟩, .vertex ⟨1⟩] := by decide +kernel
  have hcontext := (hcontext [.vertices] (List.cons_ne_nil _ _) hdelivers).1 [.limit 4]
  have hloop : tangled.edge ⟨1⟩ = .ok ⟨.number 2, "links", .empty, ⟨0⟩, ⟨0⟩⟩ := by decide +kernel
  have hfirst : (tangled.vertex ⟨0⟩).map (·.id) = .ok (.number 1) := by decide +kernel
  obtain ⟨v, hv, hid⟩ := map_eq_ok.mp hfirst
  have hends : ((tangled.walked .source ⟨0⟩ []).map fun e ↦ Element.vertex e.2.target)
        ++ ((tangled.walked .target ⟨0⟩ []).map fun e ↦ Element.vertex e.2.source)
      = [.vertex ⟨1⟩, .vertex ⟨0⟩, .vertex ⟨1⟩, .vertex ⟨1⟩] ++ [.vertex ⟨0⟩] := by
    decide +kernel
  obtain ⟨-, -, -, -, hboth, -, -, hcount⟩ := (reachable_tangled.hop_laws []).2 ⟨0⟩ v hv
  obtain ⟨hleaving, harriving⟩ := hcount ⟨1⟩ _ hloop rfl rfl
  rw [hid, hends] at hboth
  exact ⟨reachable_tangled, hdelivers, hcontext.trans hedges, hedges, hboth, _, hloop, rfl, rfl,
    hleaving, harriving⟩

end Graph

end BookmarkGraph
