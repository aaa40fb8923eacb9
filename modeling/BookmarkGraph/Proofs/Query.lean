import BookmarkGraph.Query
import BookmarkGraph.Proofs.Graph.Content
import BookmarkGraph.Proofs.Outcome
import BookmarkGraph.Proofs.Pipe.Denotation

/-!
# Queries over vertices

As long as a traversal stays on vertices of a well-formed graph there are no errors, and every step
is an operation on lists of vertex indices: a hop to neighbours, the removal of repetitions, a
filter by id or by label. This file states these equations and the answers of queries made of such
steps.
-/

namespace BookmarkGraph

def vertexItems (vs : List VertexIndex) : List Item := vs.map fun v ↦ .ok (.vertex v)

namespace Graph

def Has (g : Graph) (index : VertexIndex) : Prop := ∃ v, g.vertex index = .ok v

def labelAt (g : Graph) (index : VertexIndex) : String :=
  (g.rows[index.position.toNat]?.map (·.label)).getD ""

theorem labelAt_eq {g : Graph} {index : VertexIndex} {v : Vertex} (h : g.vertex index = .ok v) :
    g.labelAt index = v.label := by
  rw [labelAt, getElem?_rows h]
  rfl

theorem has_vertexIndices {g : Graph} (hsize : g.vertices.size ≤ arenaCapacity) :
    ∀ index ∈ g.vertexIndices, g.Has index := by
  intro index hindex
  obtain ⟨i, hi, rfl⟩ := List.mem_map.mp hindex
  have hlt : i < g.vertices.size := by
    refine Nat.lt_of_lt_of_le (List.mem_range.mp hi) ?_
    rw [UInt32.toNat_ofNat']
    exact Nat.mod_le _ _
  refine ⟨g.vertices[i], vertex_eq_ok.mpr ?_⟩
  rw [UInt32.toNat_ofNat_of_lt' (Nat.lt_of_lt_of_le hlt hsize)]
  exact Array.getElem?_eq_getElem hlt

theorem exists_find?_idAt {g : Graph} (hg : g.WellFormed) {index : VertexIndex}
    (h : g.Has index) : ∃ place, g.find? (g.idAt index) = some place := by
  obtain ⟨v, hv⟩ := h
  exact hg.exists_find? (idAt_mem hv)

theorem has_neighbours {g : Graph} (hg : g.WellFormed) {which : EdgeEnd} {label : String}
    {vs : List VertexIndex} :
    ∀ v ∈ vs.flatMap fun v ↦ g.neighbours which v label, g.Has v := by
  intro v hv
  obtain ⟨w, -, hv⟩ := List.mem_flatMap.mp hv
  exact vertex_of_mem_neighbours hg hv

end Graph

/-! ## Steps on vertices -/

section Steps

variable {g : Graph} {vs : List VertexIndex}

theorem items_identity (items : List Item) : Step.identity.items g items = items := by
  rw [Step.identity, Step.items]
  induction items with
  | nil => rfl
  | cons item rest ih =>
    rw [List.flatMap_cons, ih]
    cases item <;> rfl

theorem get_edgesAt (hg : g.WellFormed) {index : VertexIndex} {v : Vertex}
    (hv : g.vertex index = .ok v) (which : EdgeEnd) (label : String) :
    (v.edgesAt which).select [label]
      = ((g.incident which index).filter fun e ↦ e.2.label = label).map (·.1) := by
  rw [hg.edgesAt_eq hv which, EdgeLists.select, if_neg (by simp), List.flatMap_singleton,
    EdgeLists.get_ofEdges]

private theorem items_hop_of_arrive (hg : g.WellFormed) {hop : Hop} {which : EdgeEnd}
    {label : String}
    (hedges : ∀ index v, g.vertex index = .ok v →
      g.edgesOf index hop.direction hop.labels = .ok ((v.edgesAt which).select [label]))
    (harrive : ∀ index e edge, g.edge e = .ok edge →
      hop.arrive g (index, e) = .ok (.vertex (edge.vertexAt which.other)))
    (hvs : ∀ v ∈ vs, g.Has v) :
    (Step.hop hop).items g (vertexItems vs)
      = vertexItems (vs.flatMap fun v ↦ g.neighbours which v label) := by
  -- a vertex of the graph cannot fault, so its items are its neighbours and nothing else
  have hone : ∀ index, g.Has index →
      hop.items g (.ok (.vertex index)) = vertexItems (g.neighbours which index label) := by
    rintro index ⟨v, hv⟩
    rw [Hop.items, Hop.start, hedges index v hv, get_edgesAt hg hv]
    change ((_ : List EdgeIndex).map _).map _ = _
    rw [List.map_map, List.map_map, vertexItems, Graph.neighbours, List.map_map]
    refine List.map_congr_left fun e he ↦ ?_
    obtain ⟨hedge, -⟩ := (Graph.mem_incident hg.edges_le).mp (List.mem_filter.mp he).1
    exact harrive index e.1 e.2 hedge
  rw [Step.items, vertexItems, List.flatMap_map, vertexItems, List.map_flatMap]
  exact List.flatMap_congr fun v hv ↦ hone v (hvs v hv)

theorem items_out (hg : g.WellFormed) (hvs : ∀ v ∈ vs, g.Has v) (label : String) :
    (Step.out [label]).items g (vertexItems vs)
      = vertexItems (vs.flatMap fun v ↦ g.neighbours .source v label) := by
  refine items_hop_of_arrive hg (fun index v hv ↦ ?_) (fun index e edge hedge ↦ ?_) hvs
  · rw [Graph.edgesOf, hv]
    rfl
  · rw [Hop.arrive, hedge]
    rfl

theorem items_into (hg : g.WellFormed) (hvs : ∀ v ∈ vs, g.Has v) (label : String) :
    (Step.into [label]).items g (vertexItems vs)
      = vertexItems (vs.flatMap fun v ↦ g.neighbours .target v label) := by
  refine items_hop_of_arrive hg (fun index v hv ↦ ?_) (fun index e edge hedge ↦ ?_) hvs
  · rw [Graph.edgesOf, hv]
    rfl
  · rw [Hop.arrive, hedge]
    rfl

private theorem distinctItems_vertexItems (seen vs : List VertexIndex) :
    distinctItems (seen.map .vertex) (vertexItems vs)
      = vertexItems (vs.filter (· ∉ seen)).eraseDups := by
  induction vs generalizing seen with
  | nil => rfl
  | cons v vs ih =>
    rw [vertexItems, List.map_cons, distinctItems, ← vertexItems]
    have hmem : Element.vertex v ∈ seen.map Element.vertex ↔ v ∈ seen := by simp
    by_cases h : v ∈ seen
    · rw [if_pos (hmem.mpr h), ih, List.filter_cons_of_neg (by simpa using h)]
    · have hrest : vs.filter (· ∉ v :: seen)
          = (vs.filter (· ∉ seen)).filter fun w ↦ !w == v := by
        rw [List.filter_filter]
        refine List.filter_congr fun w _ ↦ ?_
        by_cases hw : w = v <;> simp [hw]
      rw [if_neg fun hv ↦ h (hmem.mp hv), ← List.map_cons, ih, hrest,
        List.filter_cons_of_pos (by simpa using h), List.eraseDups_cons]
      rfl

theorem items_distinct (g : Graph) (vs : List VertexIndex) :
    Step.distinct.items g (vertexItems vs) = vertexItems vs.eraseDups := by
  rw [Step.items]
  refine (distinctItems_vertexItems [] vs).trans ?_
  rw [List.filter_eq_self.mpr fun v _ ↦ by simp]

private theorem items_filter {step : ElementStep} {keep : VertexIndex → Bool}
    (hvs : ∀ v ∈ vs, step.apply g (.vertex v) = .ok (if keep v then some (.vertex v) else none)) :
    (Step.element step).items g (vertexItems vs) = vertexItems (vs.filter keep) := by
  rw [Step.items, vertexItems, List.flatMap_map]
  induction vs with
  | nil => rfl
  | cons v vs ih =>
    rw [List.flatMap_cons, ih fun w hw ↦ hvs w (List.mem_cons_of_mem v hw), ElementStep.items,
      hvs v List.mem_cons_self]
    cases hkeep : keep v
    · rw [List.filter_cons_of_neg (by simp [hkeep])]
      rfl
    · rw [List.filter_cons_of_pos hkeep]
      rfl

theorem items_excludeIds (hvs : ∀ v ∈ vs, g.Has v) (ids : List ElementId) :
    (Step.excludeIds ids).items g (vertexItems vs)
      = vertexItems (vs.filter fun v ↦ g.idAt v ∉ ids) := by
  refine items_filter fun index hindex ↦ ?_
  obtain ⟨v, hv⟩ := hvs index hindex
  rw [Graph.idAt_eq hv, ElementStep.apply, Graph.idOf, hv]
  by_cases h : v.id ∈ ids <;> simp [bind, Except.bind, pure, Except.pure, h] <;> rfl

theorem items_hasLabel (hvs : ∀ v ∈ vs, g.Has v) (label : String) :
    (Step.hasLabel [label]).items g (vertexItems vs)
      = vertexItems (vs.filter fun v ↦ g.labelAt v = label) := by
  refine items_filter fun index hindex ↦ ?_
  obtain ⟨v, hv⟩ := hvs index hindex
  rw [Graph.labelAt_eq hv, ElementStep.apply, Graph.labelOf, hv]
  by_cases h : v.label = label <;> simp [bind, Except.bind, pure, Except.pure, h] <;> rfl

theorem items_id (hvs : ∀ v ∈ vs, g.Has v) :
    Step.id.items g (vertexItems vs) = vs.map fun v ↦ .ok (.id (g.idAt v)) := by
  rw [Step.id, Step.items, vertexItems, List.flatMap_map, ← List.flatMap_pure_eq_map]
  refine List.flatMap_congr fun index hindex ↦ ?_
  obtain ⟨v, hv⟩ := hvs index hindex
  rw [Function.comp_apply, Graph.idAt_eq hv, ElementStep.items, ElementStep.apply, Graph.idOf, hv]
  rfl

theorem collect_map_ok (xs : List Element) : collect (xs.map .ok) = .ok xs := by
  induction xs with
  | nil => rfl
  | cons x xs ih =>
    rw [List.map_cons, collect_ok, ih]
    rfl

theorem collect_vertexItems (vs : List VertexIndex) :
    collect (vertexItems vs) = .ok (vs.map .vertex) := by
  rw [vertexItems, ← collect_map_ok, List.map_map]
  rfl

end Steps

/-! ## Queries -/

/-- The elements that a call starts a traversal from; a step cannot start one. -/
def Call.source (g : Graph) : Call → Except GraphError (List Element)
  | .vertices => .ok (g.vertexIndices.map .vertex)
  | .ofIds ids => (ids.mapM g.getVertex).map fun indices ↦ indices.map .vertex
  | .step s => .error (.invalidState (.stepBeforeStart s.name))

namespace Query

variable {g : Graph}

theorem push_ofSteps {q : Query} {steps : List Step} {source : List Element}
    (hq : q.outcome = .ok (Pipeline.ofSteps steps source)) (hsteps : steps ≠ []) (step : Step) :
    (q.push step).outcome = .ok (Pipeline.ofSteps (steps ++ [step]) source) := by
  have hpipes := (Pipeline.ready_eq_ok.mp (Pipeline.ready_ofSteps hsteps source)).1
  simp only [push, hq, List.isEmpty_iff, if_neg hpipes]
  rw [Pipeline.ofSteps, Pipeline.ofSteps, List.foldl_append]
  rfl

/-- A query that was started once and then grew by steps. -/
theorem foldl_call_step {q : Query} {first : List Step} {source : List Element}
    (hq : q.outcome = .ok (Pipeline.ofSteps first source)) (hfirst : first ≠ [])
    (steps : List Step) :
    ((steps.map Call.step).foldl (call g) q).outcome
      = .ok (Pipeline.ofSteps (first ++ steps) source) := by
  induction steps generalizing q first with
  | nil =>
    rw [List.append_nil]
    exact hq
  | cons step steps ih =>
    have hnext : (q.call g (.step step)).outcome = _ := push_ofSteps hq hfirst step
    rw [List.map_cons, List.foldl_cons, ih hnext (by simp), List.append_assoc,
      List.singleton_append]

theorem outcome_call_empty (g : Graph) (first : Call) :
    (empty.call g first).outcome = (first.source g).map (Pipeline.ofSteps [.identity]) := by
  cases first with
  | vertices => rfl
  | ofIds ids =>
    rw [call, ofIds, empty, Call.source]
    cases ids.mapM g.getVertex <;> rfl
  | step step => rfl

theorem outcome_build_start {first : Call} {source : List Element}
    (h : first.source g = .ok source) (steps : List Step) :
    (build g (first :: steps.map .step)).outcome
      = .ok (Pipeline.ofSteps (.identity :: steps) source) := by
  have hstart : (empty.call g first).outcome = .ok (Pipeline.ofSteps [.identity] source) := by
    rw [outcome_call_empty, h]
    rfl
  exact foldl_call_step hstart (List.cons_ne_nil _ _) steps

theorem outcome_build_vertices (steps : List Step) :
    (build g (.vertices :: steps.map .step)).outcome
      = .ok (Pipeline.ofSteps (.identity :: steps) (g.vertexIndices.map .vertex)) :=
  outcome_build_start rfl steps

theorem outcome_build_ofIds {id : ElementId} {index : VertexIndex} (h : g.find? id = some index)
    (steps : List Step) :
    (build g (.ofIds [id] :: steps.map .step)).outcome
      = .ok (Pipeline.ofSteps (.identity :: steps) [.vertex index]) := by
  refine outcome_build_start ?_ steps
  rw [Call.source, List.mapM_cons, Graph.getVertex, h]
  rfl

section Answers

variable {q : Query} {steps : List Step} {source : List Element} {vs : List VertexIndex}

/-- What a query delivers is what its steps mean over its source. -/
theorem toList_of_outcome (hq : q.outcome = .ok (Pipeline.ofSteps steps source))
    (hsteps : steps ≠ []) : (q.toList g).1 = collect (denote g steps source) := by
  rw [toList, run, hq]
  change ((Pipeline.ofSteps steps source).toList g).answer = _
  rw [Pipeline.answer_toList (Pipeline.ready_ofSteps hsteps source), Pipeline.items_ofSteps]

theorem toIdList_eq (g : Graph) (q : Query) : (q.toIdList g).1
    = ((q.push .id).toList g).1.bind fun elements ↦ elements.mapM expectId := rfl

theorem toList_of_denote (hq : q.outcome = .ok (Pipeline.ofSteps steps source))
    (hsteps : steps ≠ []) (hdenote : denote g steps source = vertexItems vs) :
    (q.toList g).1 = .ok (vs.map .vertex) := by
  rw [toList_of_outcome hq hsteps, hdenote, collect_vertexItems]

theorem count_of_outcome (hq : q.outcome = .ok (Pipeline.ofSteps steps source))
    (hsteps : steps ≠ []) :
    (q.count g).1 = (collect (denote g steps source)).map List.length := by
  rw [count, run, hq]
  change ((Pipeline.ofSteps steps source).count g).answer = _
  rw [Pipeline.answer_count (Pipeline.ready_ofSteps hsteps source), Pipeline.items_ofSteps]

theorem count_of_denote (hq : q.outcome = .ok (Pipeline.ofSteps steps source))
    (hsteps : steps ≠ []) (hdenote : denote g steps source = vertexItems vs) :
    (q.count g).1 = .ok vs.length := by
  rw [count_of_outcome hq hsteps, hdenote, collect_vertexItems]
  exact congrArg Except.ok (List.length_map _)

theorem toIdList_of_denote (hq : q.outcome = .ok (Pipeline.ofSteps steps source))
    (hsteps : steps ≠ []) (hdenote : denote g steps source = vertexItems vs)
    (hvs : ∀ v ∈ vs, g.Has v) : (q.toIdList g).1 = .ok (vs.map g.idAt) := by
  have hid : denote g (steps ++ [.id]) source
      = (vs.map fun v ↦ Element.id (g.idAt v)).map .ok := by
    rw [denote, List.foldl_append, ← denote, hdenote, List.foldl_cons, List.foldl_nil,
      items_id hvs, List.map_map]
    rfl
  have hlist : ((q.push .id).toList g).1 = .ok (vs.map fun v ↦ Element.id (g.idAt v)) := by
    rw [toList_of_outcome (push_ofSteps hq hsteps .id) (by simp), hid, collect_map_ok]
  rw [toIdList_eq, hlist]
  change ((vs.map fun v ↦ Element.id (g.idAt v)).mapM expectId) = _
  rw [List.mapM_map]
  exact mapM_eq_ok_map fun _ _ ↦ rfl

end Answers

end Query

end BookmarkGraph
