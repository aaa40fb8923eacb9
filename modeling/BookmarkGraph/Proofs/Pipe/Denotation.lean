import BookmarkGraph.Proofs.Graph.Incidence
import BookmarkGraph.Proofs.Pipe.Drain

/-!
# Running a traversal and what it means

A chain of fresh pipes over a source delivers exactly the items of `denote`, the meaning of its
steps on finite lists, however it is asked for them. On a graph whose edges join vertices that it
has, and from elements that it has, the only errors among these items are faults of the traversal:
an element in front of a step that cannot handle it.
-/

namespace BookmarkGraph

/-! ## Elements of a graph -/

/-- A graph has an element if it issued the index; projected elements belong to no graph. -/
def Element.IsOf (g : Graph) : Element → Prop
  | .vertex index => ∃ v, g.vertex index = .ok v
  | .edge index => ∃ edge, g.edge index = .ok edge
  | .id _ | .properties _ => True

/-- An item that a traversal of the graph can have: an element of the graph, or a fault of the
traversal in the place of one. -/
def IsItemOf (g : Graph) : Item → Prop
  | .ok x => x.IsOf g
  | .error e => ∃ fault, e = .invalidState fault

namespace Element.IsOf

variable {g : Graph} {x : Element}

theorem idOf (hx : x.IsOf g) : ∃ known, g.idOf x = .ok known := by
  cases x with
  | vertex index =>
    obtain ⟨v, hv⟩ := hx
    rw [Graph.idOf, hv]
    exact ⟨_, rfl⟩
  | edge index =>
    obtain ⟨edge, hedge⟩ := hx
    rw [Graph.idOf, hedge]
    exact ⟨_, rfl⟩
  | id known => exact ⟨_, rfl⟩
  | properties props =>
    rw [Graph.idOf]
    split <;> exact ⟨_, rfl⟩

theorem labelOf (hx : x.IsOf g) : ∃ label, g.labelOf x = .ok label := by
  cases x with
  | vertex index =>
    obtain ⟨v, hv⟩ := hx
    rw [Graph.labelOf, hv]
    exact ⟨_, rfl⟩
  | edge index =>
    obtain ⟨edge, hedge⟩ := hx
    rw [Graph.labelOf, hedge]
    exact ⟨_, rfl⟩
  | id _ | properties _ => exact ⟨_, rfl⟩

theorem propertiesOf (hx : x.IsOf g) : ∃ props, g.propertiesOf x = .ok props := by
  cases x with
  | vertex index =>
    obtain ⟨v, hv⟩ := hx
    rw [Graph.propertiesOf, hv]
    exact ⟨_, rfl⟩
  | edge index =>
    obtain ⟨edge, hedge⟩ := hx
    rw [Graph.propertiesOf, hedge]
    exact ⟨_, rfl⟩
  | id _ | properties _ => exact ⟨_, rfl⟩

theorem project (hx : x.IsOf g) (internal : Bool) :
    (∃ props, ElementStep.project g internal x = .ok props) ∨
      ∃ fault, ElementStep.project g internal x = .error (.invalidState fault) := by
  obtain ⟨props, hprops⟩ := hx.propertiesOf
  obtain ⟨known, hknown⟩ := hx.idOf
  obtain ⟨label, hlabel⟩ := hx.labelOf
  rw [ElementStep.project, hprops, hknown, hlabel]
  cases props with
  | none => exact .inr ⟨_, rfl⟩
  | some props => cases internal <;> cases known <;> cases label <;> exact .inl ⟨_, rfl⟩

theorem apply_filter (hx : x.IsOf g) {step : ElementStep}
    (hstep : step matches .excludeIds _ | .has _ _ | .hasLabel _) :
    step.apply g x = .ok none ∨ step.apply g x = .ok (some x) := by
  obtain ⟨props, hprops⟩ := hx.propertiesOf
  obtain ⟨known, hknown⟩ := hx.idOf
  obtain ⟨label, hlabel⟩ := hx.labelOf
  cases step with
  | identity | endpoint _ | id | properties _ | sideEffect => cases hstep
  | excludeIds ids =>
    simp only [ElementStep.apply, hknown, bind, Except.bind]
    cases known.any (· ∈ ids)
    · exact .inr rfl
    · exact .inl rfl
  | has key value =>
    simp only [ElementStep.apply, hprops, bind, Except.bind]
    cases (Option.bind props (·.get? key)).any (· = value)
    · exact .inl rfl
    · exact .inr rfl
  | hasLabel labels =>
    simp only [ElementStep.apply, hlabel, bind, Except.bind]
    cases label.any (· ∈ labels)
    · exact .inl rfl
    · exact .inr rfl

end Element.IsOf

/-! ## Steps stay in the graph -/

section Steps

variable {g : Graph}

/-- A step replaces an element of the graph by another one, drops it, or faults. -/
theorem ElementStep.isItemOf_apply (hg : g.WellFormed) (step : ElementStep) {x : Element}
    (hx : x.IsOf g) :
    step.apply g x = .ok none ∨ (∃ y, step.apply g x = .ok (some y) ∧ y.IsOf g) ∨
      ∃ fault, step.apply g x = .error (.invalidState fault) := by
  cases step with
  | identity | sideEffect => exact .inr (.inl ⟨x, rfl, hx⟩)
  | endpoint which =>
    cases x with
    | edge index =>
      obtain ⟨edge, hedge⟩ := hx
      obtain ⟨v, hv⟩ := hg.exists_vertexAt hedge which
      refine .inr (.inl ⟨.vertex (edge.vertexAt which), ?_, v, hv⟩)
      rw [apply, hedge]
      cases which <;> rfl
    | vertex _ | id _ | properties _ => exact .inr (.inr ⟨_, rfl⟩)
  | id =>
    obtain ⟨known, hknown⟩ := hx.idOf
    rw [apply, hknown]
    cases known with
    | none => exact .inr (.inr ⟨_, rfl⟩)
    | some known => exact .inr (.inl ⟨.id known, rfl, trivial⟩)
  | properties internal =>
    rw [apply]
    rcases hx.project internal with ⟨projected, hproject⟩ | ⟨fault, hproject⟩
    · rw [hproject]
      exact .inr (.inl ⟨.properties projected, rfl, trivial⟩)
    · rw [hproject]
      exact .inr (.inr ⟨fault, rfl⟩)
  | excludeIds _ | has _ _ | hasLabel _ =>
    exact (hx.apply_filter (by rfl)).imp (fun h ↦ h) fun h ↦ .inl ⟨x, h, hx⟩

theorem ElementStep.isItemOf_items (hg : g.WellFormed) (step : ElementStep) {item : Item}
    (hitem : IsItemOf g item) : ∀ i ∈ step.items g item, IsItemOf g i := by
  intro i hi
  cases item with
  | error e =>
    rw [List.mem_singleton.mp hi]
    exact hitem
  | ok x =>
    rw [items] at hi
    rcases step.isItemOf_apply hg hitem with h | ⟨y, h, hy⟩ | ⟨fault, h⟩ <;> rw [h] at hi
    · exact absurd hi List.not_mem_nil
    · rw [List.mem_singleton.mp hi]
      exact hy
    · rw [List.mem_singleton.mp hi]
      exact ⟨fault, rfl⟩

/-- The edges on the sides of a vertex are edges of the graph with an end at the vertex. -/
theorem Graph.WellFormed.mem_select (hg : g.WellFormed) {index : VertexIndex} {v : Vertex}
    (hv : g.vertex index = .ok v) {which : EdgeEnd} {labels : List String} {e : EdgeIndex} :
    e ∈ (v.edgesAt which).select labels ↔
      ∃ edge, g.edge e = .ok edge ∧ edge.vertexAt which = index ∧
        (labels = [] ∨ edge.label ∈ labels) := by
  rw [EdgeLists.select]
  split
  · rename_i hempty
    have hlabels : labels = [] := List.isEmpty_iff.mp hempty
    rw [hg.edgesAt_eq hv which, (EdgeLists.all_ofEdges _).mem_iff, List.mem_map]
    constructor
    · rintro ⟨⟨e', edge⟩, hmem, rfl⟩
      obtain ⟨hedge, hend⟩ := (Graph.mem_incident hg.edges_le).mp hmem
      exact ⟨edge, hedge, hend, .inl hlabels⟩
    · rintro ⟨edge, hedge, hend, -⟩
      exact ⟨(e, edge), (Graph.mem_incident hg.edges_le).mpr ⟨hedge, hend⟩, rfl⟩
  · rename_i hsome
    have hlabels : labels ≠ [] := fun h ↦ hsome (List.isEmpty_iff.mpr h)
    rw [List.mem_flatMap]
    constructor
    · rintro ⟨label, hmem, hget⟩
      obtain ⟨edge, hedge, hend, rfl⟩ := (hg.mem_get hv).mp hget
      exact ⟨edge, hedge, hend, .inr hmem⟩
    · rintro ⟨edge, hedge, hend, hlabel⟩
      exact ⟨edge.label, hlabel.resolve_left hlabels, (hg.mem_get hv).mpr
        ⟨edge, hedge, hend, rfl⟩⟩

/-- The edges that a hop walks from a vertex of the graph are edges of the graph. -/
theorem Hop.start_vertex (hg : g.WellFormed) (hop : Hop) {index : VertexIndex} {v : Vertex}
    (hv : g.vertex index = .ok v) :
    ∃ walks, hop.start g (.vertex index) = .ok walks ∧
      ∀ walk ∈ walks, ∃ edge, g.edge walk.2 = .ok edge := by
  have hedges : ∃ edges, g.edgesOf index hop.direction hop.labels = .ok edges ∧
      ∀ e ∈ edges, ∃ edge, g.edge e = .ok edge := by
    -- a hop in both directions walks one side after the other
    have hside : ∀ which, ∀ e ∈ (v.edgesAt which).select hop.labels,
        ∃ edge, g.edge e = .ok edge := by
      intro which e he
      obtain ⟨edge, hedge, -, -⟩ := (hg.mem_select hv).mp he
      exact ⟨edge, hedge⟩
    rw [Graph.edgesOf, hv]
    cases hop.direction with
    | outgoing => exact ⟨_, rfl, hside .source⟩
    | incoming => exact ⟨_, rfl, hside .target⟩
    | either =>
      refine ⟨_, rfl, fun e he ↦ ?_⟩
      rcases List.mem_append.mp he with he | he
      · exact hside .source e he
      · exact hside .target e he
  obtain ⟨edges, hedges, hmem⟩ := hedges
  refine ⟨edges.map fun e ↦ (index, e), ?_, fun walk hwalk ↦ ?_⟩
  · rw [Hop.start, hedges]
    rfl
  · obtain ⟨e, he, rfl⟩ := List.mem_map.mp hwalk
    exact hmem e he

theorem Hop.isItemOf_arrive (hg : g.WellFormed) (hop : Hop) {walk : VertexIndex × EdgeIndex}
    {edge : Edge} (hedge : g.edge walk.2 = .ok edge) : IsItemOf g (hop.arrive g walk) := by
  have hs := hg.exists_vertexAt hedge .source
  have ht := hg.exists_vertexAt hedge .target
  obtain ⟨landing, direction, labels⟩ := hop
  cases landing with
  | edge => exact ⟨edge, hedge⟩
  | vertex =>
    simp only [arrive, hedge, bind, Except.bind]
    cases direction with
    | outgoing => exact ht
    | incoming => exact hs
    | either =>
      change (Element.vertex (edge.otherEnd walk.1)).IsOf g
      rw [Edge.otherEnd]
      split
      · exact ht
      · exact hs

theorem Hop.isItemOf_items (hg : g.WellFormed) (hop : Hop) {item : Item}
    (hitem : IsItemOf g item) : ∀ i ∈ hop.items g item, IsItemOf g i := by
  intro i hi
  cases item with
  | error e =>
    rw [List.mem_singleton.mp hi]
    exact hitem
  | ok x =>
    cases x with
    | vertex index =>
      obtain ⟨v, hv⟩ := hitem
      obtain ⟨walks, hstart, hwalks⟩ := hop.start_vertex hg hv
      rw [items, hstart] at hi
      obtain ⟨walk, hwalk, rfl⟩ := List.mem_map.mp hi
      obtain ⟨edge, hedge⟩ := hwalks walk hwalk
      exact hop.isItemOf_arrive hg hedge
    | edge _ | id _ | properties _ =>
      rw [List.mem_singleton.mp hi]
      exact ⟨_, rfl⟩

theorem mem_of_mem_limitItems {n : Nat} {items : List Item} {item : Item}
    (h : item ∈ limitItems n items) : item ∈ items := by
  fun_induction limitItems n items with
  | case1 | case2 => exact absurd h List.not_mem_nil
  | case3 n e rest ih | case4 n x rest ih =>
    rcases List.mem_cons.mp h with rfl | h
    · exact List.mem_cons_self
    · exact List.mem_cons_of_mem _ (ih h)

theorem mem_of_mem_distinctItems {seen : List Element} {items : List Item} {item : Item}
    (h : item ∈ distinctItems seen items) : item ∈ items := by
  fun_induction distinctItems seen items with
  | case1 => exact absurd h List.not_mem_nil
  | case2 seen e rest ih | case4 seen x rest hnew ih =>
    rcases List.mem_cons.mp h with rfl | h
    · exact List.mem_cons_self
    · exact List.mem_cons_of_mem _ (ih h)
  | case3 seen x rest hold ih => exact List.mem_cons_of_mem _ (ih h)

theorem Step.isItemOf_items (hg : g.WellFormed) (step : Step) {items : List Item}
    (hitems : ∀ i ∈ items, IsItemOf g i) : ∀ i ∈ step.items g items, IsItemOf g i := by
  intro i hi
  cases step with
  | element step =>
    obtain ⟨item, hitem, hi⟩ := List.mem_flatMap.mp hi
    exact step.isItemOf_items hg (hitems item hitem) i hi
  | hop h =>
    obtain ⟨item, hitem, hi⟩ := List.mem_flatMap.mp hi
    exact h.isItemOf_items hg (hitems item hitem) i hi
  | limit bound => exact hitems i (mem_of_mem_limitItems hi)
  | distinct => exact hitems i (mem_of_mem_distinctItems hi)

theorem isItemOf_denote (hg : g.WellFormed) (steps : List Step) {source : List Element}
    (hsource : ∀ x ∈ source, x.IsOf g) : ∀ i ∈ denote g steps source, IsItemOf g i := by
  -- the source turns into arbitrary items after the first step
  have hfold : ∀ items : List Item, (∀ i ∈ items, IsItemOf g i) →
      ∀ i ∈ steps.foldl (fun items step ↦ step.items g items) items, IsItemOf g i := by
    induction steps with
    | nil => exact fun items h ↦ h
    | cons step steps ih => exact fun items h ↦ ih _ (step.isItemOf_items hg h)
  refine hfold _ fun i hi ↦ ?_
  obtain ⟨x, hx, rfl⟩ := List.mem_map.mp hi
  exact hsource x hx

end Steps

/-! ## Fresh chains -/

namespace Pipeline

/-- A chain of fresh pipes, one for each step, over a source. -/
def ofSteps (steps : List Step) (source : List Element) : Pipeline :=
  steps.foldl addStep (empty.setStarts source)

theorem items_addStep (g : Graph) (p : Pipeline) (step : Step) :
    (p.addStep step).items g = step.items g (p.items g) :=
  Stage.items_start step (p.items g)

theorem items_ofSteps (g : Graph) (steps : List Step) (source : List Element) :
    (ofSteps steps source).items g = denote g steps source := by
  have hfold : ∀ p : Pipeline, (steps.foldl addStep p).items g
      = steps.foldl (fun items step ↦ step.items g items) (p.items g) := by
    induction steps with
    | nil => exact fun p ↦ rfl
    | cons step steps ih =>
      intro p
      rw [List.foldl_cons, List.foldl_cons, ih, items_addStep]
  exact hfold _

theorem pipes_foldl_addStep (steps : List Step) (p : Pipeline) :
    steps.foldl addStep p = ⟨(steps.map Step.pipe).reverse ++ p.pipes, p.origin⟩ := by
  induction steps generalizing p with
  | nil => rfl
  | cons step steps ih =>
    rw [List.foldl_cons, ih, List.map_cons, List.reverse_cons, List.append_assoc]
    rfl

theorem ready_ofSteps {steps : List Step} (hsteps : steps ≠ []) (source : List Element) :
    (ofSteps steps source).ready = .ok () := by
  rw [ofSteps, pipes_foldl_addStep, ready_eq_ok]
  refine ⟨fun h ↦ hsteps ?_, rfl⟩
  rw [← List.map_eq_nil_iff (f := Step.pipe), ← List.reverse_eq_nil_iff]
  exact (List.append_eq_nil_iff.mp h).1

theorem emptyInnermost_fresh (steps : List Step) :
    emptyInnermost (steps.map Step.pipe) = steps.map Step.pipe := by
  induction steps with
  | nil => rfl
  | cons step steps ih =>
    cases steps with
    | nil => rfl
    | cons step' steps => exact congrArg (step.pipe :: ·) ih

/-- The source may as well be bound after the steps were appended. -/
theorem setStarts_foldl_addStep (steps : List Step) (source : List Element) :
    (steps.foldl addStep empty).setStarts source = ofSteps steps source := by
  rw [ofSteps, pipes_foldl_addStep, pipes_foldl_addStep, ← List.map_reverse, setStarts, empty,
    setStarts, List.append_nil, emptyInnermost_fresh]
  exact congrArg (Pipeline.mk · _) (List.append_nil _).symm

end Pipeline

/-- **Running a traversal is computing what it means.** On a chain of fresh pipes, bound to its
source first or last, the requests hand over the items of the denotation one after the other, going
on after errors, and `none` for ever after the last one. A drain returns all of its elements or its
first error. All items belong to the graph: the only errors are elements in front of steps that
cannot handle them. -/
theorem Graph.Reachable.run_eq_denote {g : Graph} (h : g.Reachable) {steps : List Step}
    (hsteps : steps ≠ []) {source : List Element} (hsource : ∀ x ∈ source, x.IsOf g) :
    (steps.foldl Pipeline.addStep .empty).setStarts source = Pipeline.ofSteps steps source ∧
    (∀ n, (((Pipeline.ofSteps steps source).afterNexts g n).next g).answer
      = Pipeline.answerOf (denote g steps source)[n]?) ∧
    ((Pipeline.ofSteps steps source).toList g).answer = collect (denote g steps source) ∧
    ((Pipeline.ofSteps steps source).count g).answer
      = (collect (denote g steps source)).map List.length ∧
    ((Pipeline.ofSteps steps source).iterate g).answer
      = (collect (denote g steps source)).map (fun _ ↦ ()) ∧
    ∀ item ∈ denote g steps source, IsItemOf g item := by
  have hready := Pipeline.ready_ofSteps hsteps source
  have hitems := Pipeline.items_ofSteps g steps source
  refine ⟨Pipeline.setStarts_foldl_addStep steps source, fun n ↦ ?_, ?_, ?_, ?_,
    isItemOf_denote h.wellFormed steps hsource⟩
  · rw [Pipeline.answer_next_afterNexts n hready, hitems]
  · rw [Pipeline.answer_toList hready, hitems]
  · rw [Pipeline.answer_count hready, hitems]
  · rw [Pipeline.answer_iterate hready, hitems]

theorem Graph.run_eq_denote_tangled :
    let source : List Element := [.id (.number 7), .vertex ⟨0⟩, .vertex ⟨0⟩]
    let p := Pipeline.ofSteps [.out ["cites", "links"], .distinct, .id] source
    tangled.Reachable ∧ (∀ x ∈ source, x.IsOf tangled) ∧
      (p.next tangled).answer = .error (.invalidState (.verticesExpected "out" .id)) ∧
      ((p.afterNexts tangled 1).next tangled).answer = .ok (some (.id (.name "b"))) ∧
      ((p.afterNexts tangled 2).next tangled).answer = .ok (some (.id (.number 1))) ∧
      ((p.afterNexts tangled 3).next tangled).answer = .ok none ∧
      (p.toList tangled).answer = .error (.invalidState (.verticesExpected "out" .id)) := by
  intro source p
  have hvertex : ∃ v, tangled.vertex ⟨0⟩ = .ok v := by
    have hsize : 0 < tangled.vertices.size := by decide +kernel
    exact ⟨_, vertex_eq_ok.mpr (Array.getElem?_eq_getElem hsize)⟩
  have hsource : ∀ x ∈ source, x.IsOf tangled := by
    intro x hx
    rcases List.mem_cons.mp hx with rfl | hx
    · trivial
    · rw [(List.mem_replicate (n := 2)).mp hx |>.2]
      exact hvertex
  have hsteps : [Step.out ["cites", "links"], .distinct, .id] ≠ [] := List.cons_ne_nil _ _
  obtain ⟨-, hnext, hlist, -⟩ := reachable_tangled.run_eq_denote hsteps hsource
  exact ⟨reachable_tangled, hsource, (hnext 0).trans (by decide +kernel),
    (hnext 1).trans (by decide +kernel), (hnext 2).trans (by decide +kernel),
    (hnext 3).trans (by decide +kernel), hlist.trans (by decide +kernel)⟩

end BookmarkGraph