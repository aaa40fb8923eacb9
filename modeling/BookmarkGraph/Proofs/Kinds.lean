import BookmarkGraph.Proofs.Pipe.LookAhead
import BookmarkGraph.Proofs.Projection

/-!
# Kinds of elements

What flows at a point of a traversal is known from the steps before it: vertices, edges, ids or
property maps. Among maps, those made by an internal projection of a vertex or edge stand out,
because an id can be read off them, also after further projections.

A step that gets elements of a kind delivers elements of the kind that it leads to, and a step that
accepts the kind does not fault on any of them. Both are one statement about items, in which faults
may be allowed or not.
-/

namespace BookmarkGraph

/-- What the elements at a point of a traversal are. -/
inductive Kind where
  /-- Vertices of the graph. -/
  | vertex
  /-- Edges of the graph. -/
  | edge
  /-- Ids. -/
  | id
  /-- Property maps, which have a readable id if so marked. -/
  | map (readable : Bool)
deriving DecidableEq

/-- An element of a kind. Vertices and edges have a place in the graph. -/
inductive Graph.HasKind (g : Graph) : Kind → Element → Prop
  | vertex {index : VertexIndex} {v : Vertex} (h : g.vertex index = .ok v) :
    HasKind g .vertex (.vertex index)
  | edge {index : EdgeIndex} {edge : Edge} (h : g.edge index = .ok edge) :
    HasKind g .edge (.edge index)
  | id (known : ElementId) : HasKind g .id (.id known)
  | map {readable : Bool} {props : Properties}
    (h : readable = true → ∃ known, g.idOf (.properties props) = .ok (some known)) :
    HasKind g (.map readable) (.properties props)

/-! ## The kind that a step leads to -/

def ElementStep.after (k : Kind) : ElementStep → Kind
  | .endpoint _ => .vertex
  | .id => .id
  | .properties internal =>
    match k with
    | .vertex | .edge => .map internal
    | .map readable => .map readable
    | .id => .map false
  | .identity | .excludeIds _ | .has _ _ | .hasLabel _ | .sideEffect => k

/-- Whether a step takes elements of a kind. -/
def ElementStep.accepts (k : Kind) : ElementStep → Bool
  | .endpoint _ => k = .edge
  | .id => k ≠ .map false
  | .properties _ => k ≠ .id
  | .identity | .excludeIds _ | .has _ _ | .hasLabel _ | .sideEffect => true

namespace Step

def after (k : Kind) : Step → Kind
  | element step => step.after k
  | hop h =>
    match h.landing with
    | .vertex => .vertex
    | .edge => .edge
  | limit _ | distinct => k

def accepts (k : Kind) : Step → Bool
  | element step => step.accepts k
  | hop _ => k = .vertex
  | limit _ | distinct => true

end Step

def Kind.after (k : Kind) (steps : List Step) : Kind := steps.foldl Step.after k

/-- Whether every step of a chain takes what the steps before it lead to. -/
def Kind.fits (k : Kind) : List Step → Bool
  | [] => true
  | step :: steps => step.accepts k && (step.after k).fits steps

/-! ## One element -/

section Elements

variable {g : Graph} {k : Kind} {x : Element}

theorem Graph.HasKind.isOf (hx : g.HasKind k x) : x.IsOf g := by
  cases hx with
  | vertex h => exact ⟨_, h⟩
  | edge h => exact ⟨_, h⟩
  | id _ | map _ => trivial

/-- Every element has an id, except for a map without a readable one. -/
theorem Graph.HasKind.idOf (hx : g.HasKind k x) (hk : k ≠ .map false) :
    ∃ known, g.idOf x = .ok (some known) := by
  cases hx with
  | vertex h =>
    obtain ⟨known, -, -, hid, -, -⟩ := Holds.facts (x := .vertex _) ⟨_, h⟩
    exact ⟨known, hid⟩
  | edge h =>
    obtain ⟨known, -, -, hid, -, -⟩ := Holds.facts (x := .edge _) ⟨_, h⟩
    exact ⟨known, hid⟩
  | id known => exact ⟨known, rfl⟩
  | @map readable _ h =>
    cases readable with
    | true => exact h rfl
    | false => exact absurd rfl hk

/-- The map of a vertex or edge has a readable id if it is an internal one. -/
theorem Graph.Holds.hasKind_project (hx : g.Holds x) (internal : Bool) :
    ∃ props, ElementStep.project g internal x = .ok props ∧
      g.HasKind (.map internal) (.properties props) := by
  cases internal with
  | true =>
    obtain ⟨known, props, -, hproject, hget⟩ := hx.project
    exact ⟨props, hproject, .map fun _ ↦ ⟨_, idOf_of_get? hget⟩⟩
  | false =>
    obtain ⟨-, props, -, -, hprops, -⟩ := hx.facts
    refine ⟨props, ?_, .map nofun⟩
    rw [ElementStep.project, hprops]
    rfl

theorem Graph.hasKind_project_map {readable : Bool} {props : Properties}
    (h : readable = true → ∃ known, g.idOf (.properties props) = .ok (some known))
    (internal : Bool) :
    ∃ props', ElementStep.project g internal (.properties props) = .ok props' ∧
      g.HasKind (.map readable) (.properties props') := by
  cases internal with
  | false => exact ⟨props, rfl, .map h⟩
  | true =>
    obtain ⟨known, hknown⟩ := Element.IsOf.idOf (g := g) (x := .properties props) trivial
    cases known with
    | none =>
      refine ⟨props, ?_, .map h⟩
      rw [ElementStep.project, hknown]
      rfl
    | some known =>
      have hget : (props.insert "_id" (.ofId known)).get? "_id" = some (.ofId known) := by
        rw [Properties.get?_insert, if_pos rfl]
      refine ⟨props.insert "_id" (.ofId known), ?_, .map fun _ ↦ ⟨_, idOf_of_get? hget⟩⟩
      rw [ElementStep.project, hknown]
      rfl

theorem Graph.HasKind.project (hx : g.HasKind k x) (hk : k ≠ .id) (internal : Bool) :
    ∃ props, ElementStep.project g internal x = .ok props ∧
      g.HasKind ((ElementStep.properties internal).after k) (.properties props) := by
  cases hx with
  | vertex h => exact Holds.hasKind_project (x := .vertex _) ⟨_, h⟩ internal
  | edge h => exact Holds.hasKind_project (x := .edge _) ⟨_, h⟩ internal
  | id _ => exact absurd rfl hk
  | map h => exact hasKind_project_map h internal

/-- A step drops an element of a kind, leads to one of the next kind, or does not take it. -/
theorem ElementStep.apply_hasKind (hg : g.WellFormed) (step : ElementStep) (hx : g.HasKind k x) :
    step.apply g x = .ok none ∨ (∃ y, step.apply g x = .ok (some y) ∧ g.HasKind (step.after k) y) ∨
      step.accepts k = false ∧ ∃ fault, step.apply g x = .error (.invalidState fault) := by
  cases step with
  | identity | sideEffect => exact .inr (.inl ⟨x, rfl, hx⟩)
  | excludeIds _ | has _ _ | hasLabel _ =>
    exact (hx.isOf.apply_filter (by rfl)).imp (fun h ↦ h) fun h ↦ .inl ⟨x, h, hx⟩
  | endpoint which =>
    cases hx with
    | @edge index edge hedge =>
      obtain ⟨v, hv⟩ := hg.exists_vertexAt hedge which
      refine .inr (.inl ⟨.vertex (edge.vertexAt which), ?_, .vertex hv⟩)
      rw [apply, hedge]
      cases which <;> rfl
    | vertex _ | id _ | map _ => exact .inr (.inr ⟨rfl, _, rfl⟩)
  | id =>
    by_cases hk : k = .map false
    · -- a map may still have an id, though none that is known beforehand
      obtain ⟨known, hknown⟩ := hx.isOf.idOf
      rw [apply, hknown]
      cases known with
      | none => exact .inr (.inr ⟨by rw [hk]; rfl, _, rfl⟩)
      | some known => exact .inr (.inl ⟨.id known, rfl, .id known⟩)
    · obtain ⟨known, hknown⟩ := hx.idOf hk
      rw [apply, hknown]
      exact .inr (.inl ⟨.id known, rfl, .id known⟩)
  | properties internal =>
    by_cases hk : k = .id
    · subst hk
      obtain ⟨known⟩ := hx
      exact .inr (.inr ⟨rfl, _, rfl⟩)
    · obtain ⟨props, hproject, hprops⟩ := hx.project hk internal
      refine .inr (.inl ⟨.properties props, ?_, hprops⟩)
      rw [apply, hproject]
      rfl

end Elements

/-! ## Items -/

/-- An item at a point of a kind: an element of the kind, or a fault of the traversal where faults
are allowed. It is never an access to a place that the graph does not have. -/
def Graph.HasItem (g : Graph) (faults : Prop) (k : Kind) : Item → Prop
  | .ok x => g.HasKind k x
  | .error e => faults ∧ ∃ fault, e = .invalidState fault

section Items

variable {g : Graph} {faults : Prop} {k : Kind}

theorem ElementStep.hasItem_items (hg : g.WellFormed) {step : ElementStep}
    (h : step.accepts k = true ∨ faults) {item : Item} (hitem : g.HasItem faults k item) :
    ∀ i ∈ step.items g item, g.HasItem faults (step.after k) i := by
  intro i hi
  cases item with
  | error e =>
    rw [List.mem_singleton.mp hi]
    exact hitem
  | ok x =>
    rw [items] at hi
    rcases step.apply_hasKind hg hitem with hx | ⟨y, hx, hy⟩ | ⟨hrejects, fault, hx⟩ <;>
      rw [hx] at hi
    · exact absurd hi List.not_mem_nil
    · rw [List.mem_singleton.mp hi]
      exact hy
    · rw [List.mem_singleton.mp hi]
      refine ⟨h.resolve_left fun haccepts ↦ ?_, fault, rfl⟩
      rw [hrejects] at haccepts
      cases haccepts

theorem Hop.hasItem_arrive (hg : g.WellFormed) (hop : Hop) {walk : VertexIndex × EdgeIndex}
    {edge : Edge} (hedge : g.edge walk.2 = .ok edge) :
    g.HasItem faults ((Step.hop hop).after k) (hop.arrive g walk) := by
  have hitem := hop.isItemOf_arrive hg hedge
  obtain ⟨landing, direction, labels⟩ := hop
  cases landing with
  | edge => exact Graph.HasKind.edge hedge
  | vertex =>
    simp only [arrive, hedge, bind, Except.bind] at hitem ⊢
    cases direction with
    | outgoing | incoming | either =>
      obtain ⟨v, hv⟩ := hitem
      exact Graph.HasKind.vertex hv

theorem Hop.hasItem_items (hg : g.WellFormed) {hop : Hop}
    (h : (Step.hop hop).accepts k = true ∨ faults) {item : Item}
    (hitem : g.HasItem faults k item) :
    ∀ i ∈ hop.items g item, g.HasItem faults ((Step.hop hop).after k) i := by
  intro i hi
  cases item with
  | error e =>
    rw [List.mem_singleton.mp hi]
    exact hitem
  | ok x =>
    cases (hitem : g.HasKind k x) with
    | vertex hv =>
      obtain ⟨walks, hstart, hwalks⟩ := hop.start_vertex hg hv
      rw [items, hstart] at hi
      obtain ⟨walk, hwalk, rfl⟩ := List.mem_map.mp hi
      obtain ⟨edge, hedge⟩ := hwalks walk hwalk
      exact hop.hasItem_arrive hg hedge
    | edge _ | id _ | map _ =>
      rw [List.mem_singleton.mp hi]
      exact ⟨h.resolve_left Bool.false_ne_true, _, rfl⟩

/-- A step leads from items of a kind to items of the next kind, without new faults if it accepts
the kind. -/
theorem Step.hasItem_items (hg : g.WellFormed) {step : Step} (h : step.accepts k = true ∨ faults)
    {items : List Item} (hitems : ∀ i ∈ items, g.HasItem faults k i) :
    ∀ i ∈ step.items g items, g.HasItem faults (step.after k) i := by
  intro i hi
  cases step with
  | element step =>
    obtain ⟨item, hitem, hi⟩ := List.mem_flatMap.mp hi
    exact ElementStep.hasItem_items hg h (hitems item hitem) i hi
  | hop hop =>
    obtain ⟨item, hitem, hi⟩ := List.mem_flatMap.mp hi
    exact Hop.hasItem_items hg h (hitems item hitem) i hi
  | limit bound => exact hitems i (mem_of_mem_limitItems hi)
  | distinct => exact hitems i (mem_of_mem_distinctItems hi)

theorem hasItem_foldl (hg : g.WellFormed) {steps : List Step} (h : k.fits steps = true ∨ faults)
    {items : List Item} (hitems : ∀ i ∈ items, g.HasItem faults k i) :
    ∀ i ∈ steps.foldl (fun items step ↦ step.items g items) items,
      g.HasItem faults (k.after steps) i := by
  induction steps generalizing k items with
  | nil => exact hitems
  | cons step steps ih =>
    refine ih (h.imp_left fun hfits ↦ ?_) (Step.hasItem_items hg (h.imp_left fun hfits ↦ ?_) hitems)
    · exact (Bool.and_eq_true_iff.mp hfits).2
    · exact (Bool.and_eq_true_iff.mp hfits).1

theorem hasItem_denote (hg : g.WellFormed) {first : Call} {source : List Element}
    (hsource : first.source g = .ok source) {steps : List Step}
    (h : Kind.vertex.fits steps = true ∨ faults) :
    ∀ i ∈ denote g steps source, g.HasItem faults (Kind.vertex.after steps) i := by
  refine hasItem_foldl hg h fun i hi ↦ ?_
  obtain ⟨x, hx, rfl⟩ := List.mem_map.mp hi
  obtain ⟨index, rfl, v, hv⟩ := Call.source_spec hg hsource x hx
  exact Graph.HasKind.vertex hv

end Items

/-! ## Queries -/

namespace Pipeline

theorem results_serveAll_empty {g : Graph} {demands : List Demand} {answer : Answer}
    (hanswer : answer ∈ empty.serveAll g demands) {item : Item}
    (hitem : item ∈ answer.results) : item = .error (.invalidState .noPipes) := by
  have hserve : ∀ demand, (empty.serve g demand).2 = .empty ∧
      ∀ item ∈ (empty.serve g demand).1.results,
        item = .error (.invalidState .noPipes) := by
    intro demand
    cases demand with
    | hasNext | next | toList | count | iterate => exact ⟨rfl, fun _ ↦ List.mem_singleton.mp⟩
    | take n =>
      cases n with
      | zero => exact ⟨rfl, fun _ h ↦ absurd h List.not_mem_nil⟩
      | succ n => exact ⟨rfl, fun _ ↦ List.mem_singleton.mp⟩
  induction demands with
  | nil => exact absurd hanswer List.not_mem_nil
  | cons demand demands ih =>
    rw [serveAll, (hserve demand).1] at hanswer
    rcases List.mem_cons.mp hanswer with rfl | hanswer
    · exact (hserve demand).2 item hitem
    · exact ih hanswer

end Pipeline

def Call.after (k : Kind) : Call → Kind
  | .vertices | .ofIds _ => .vertex
  | .step s => s.after k

namespace Query

def kindOf (calls : List Call) : Kind := calls.foldl Call.after .vertex

theorem kindOf_build {g : Graph} {first : Call} {source : List Element}
    (h : first.source g = .ok source) (steps : List Step) :
    kindOf (first :: steps.map .step) = Kind.vertex.after steps := by
  have hfirst : Call.after .vertex first = .vertex := by
    cases first with
    | vertices | ofIds _ => rfl
    | step s => cases h
  rw [kindOf, List.foldl_cons, hfirst, List.foldl_map]
  rfl

/-- A query that fails at nothing, whatever is done with it, and delivers elements of a kind. -/
structure Faultless (g : Graph) (k : Kind) (q : Query) : Prop where
  /-- The pipeline is built, and whatever is demanded of it in any order is answered. -/
  serveAll : ∃ p, q.outcome = .ok p ∧ ∀ demands, ∀ answer ∈ p.serveAll g demands,
    ∀ item ∈ answer.results, ∃ x, item = .ok x ∧ g.HasKind k x
  /-- The elements can be listed. -/
  toList : ∃ xs, (q.toList g).1 = .ok xs ∧ ∀ x ∈ xs, g.HasKind k x
  /-- The elements can be counted. -/
  count : ∃ n, (q.count g).1 = .ok n
  /-- The elements can be passed by. -/
  iterate : (q.iterate g).1 = .ok ()
  /-- The ids can be listed, where there are any. -/
  toIdList : k ≠ .map false → ∃ ids, (q.toIdList g).1 = .ok ids

variable {g : Graph} {first : Call} {steps : List Step} {source : List Element}

/-- Without faults there are only elements. -/
theorem denote_of_fits (hg : g.WellFormed) (hsource : first.source g = .ok source)
    (hfits : Kind.vertex.fits steps = true) :
    ∃ xs : List Element, denote g steps source = xs.map .ok ∧ ∀ x ∈ xs,
      g.HasKind (Kind.vertex.after steps) x := by
  have hitems : ∀ item ∈ denote g steps source,
      g.HasItem False (Kind.vertex.after steps) item := hasItem_denote hg hsource (.inl hfits)
  cases hcollect : collect (denote g steps source) with
  | error e => exact absurd (hitems _ (mem_of_collect hcollect)).1 id
  | ok xs =>
    have hxs := eq_map_of_collect hcollect
    refine ⟨xs, hxs, fun x hx ↦ hitems (.ok x) ?_⟩
    rw [hxs]
    exact List.mem_map_of_mem hx

theorem fits_append_id (k : Kind) (steps : List Step) :
    k.fits (steps ++ [Step.id]) = (k.fits steps && Step.id.accepts (k.after steps)) := by
  induction steps generalizing k with
  | nil => exact Bool.and_true _
  | cons step steps ih =>
    rw [List.cons_append, Kind.fits, ih, Kind.fits, Bool.and_assoc]
    rfl

theorem toIdList_of_fits (hg : g.WellFormed) (hsource : first.source g = .ok source)
    (hfits : Kind.vertex.fits steps = true) (hid : Kind.vertex.after steps ≠ .map false) :
    ∃ ids, ((build g (first :: steps.map .step)).toIdList g).1 = .ok ids := by
  have hfits' : Kind.vertex.fits (steps ++ [.id]) = true := by
    rw [fits_append_id, hfits]
    exact decide_eq_true hid
  obtain ⟨xs, hxs, hkind⟩ := denote_of_fits hg hsource hfits'
  have hlist : (((build g (first :: steps.map .step)).push .id).toList g).1 = .ok xs := by
    have hpush : (build g (first :: steps.map .step)).push .id
        = build g (first :: (steps ++ [Step.id]).map .step) := by
      rw [List.map_append, ← List.cons_append, build_append]
      rfl
    rw [hpush, toList_build_start hsource, hxs, collect_map_ok]
  have hexpect : ∀ x ∈ xs, expectId x = .ok (x.asId?.getD default) := by
    intro x hx
    have hxid : g.HasKind .id x := by
      have hlast := hkind x hx
      rwa [Kind.after, List.foldl_append] at hlast
    obtain ⟨known⟩ := hxid
    rfl
  refine ⟨xs.map fun x ↦ x.asId?.getD default, ?_⟩
  rw [toIdList_eq, hlist]
  exact mapM_eq_ok_map hexpect

theorem faultless_build (hg : g.WellFormed) (hsource : first.source g = .ok source)
    (hfits : Kind.vertex.fits steps = true) :
    (build g (first :: steps.map .step)).Faultless g (Kind.vertex.after steps) := by
  have hbuilt := outcome_build_start hsource steps
  obtain ⟨hready, hitems⟩ := items_of_outcome_build hsource hbuilt
  obtain ⟨xs, hxs, hkind⟩ := denote_of_fits hg hsource hfits
  have hcollect : collect (denote g steps source) = .ok xs := by rw [hxs, collect_map_ok]
  refine ⟨⟨_, hbuilt, fun demands answer hanswer item hitem ↦ ?_⟩, ⟨xs, ?_, hkind⟩,
    ⟨xs.length, ?_⟩, ?_, fun hid ↦ ?_⟩
  · rw [Pipeline.serveAll_eq_readAll hready, hitems, hxs] at hanswer
    obtain ⟨x, hx, rfl⟩ := List.mem_map.mp (Demand.mem_of_mem_readAll hanswer hitem)
    exact ⟨x, rfl, hkind x hx⟩
  · rw [toList_build_start hsource, hcollect]
  · rw [Query.count, run, hbuilt]
    change ((Pipeline.ofSteps (.identity :: steps) source).count g).answer = _
    rw [Pipeline.answer_count hready, hitems, hcollect]
    rfl
  · rw [Query.iterate, run, hbuilt]
    change ((Pipeline.ofSteps (.identity :: steps) source).iterate g).answer = _
    rw [Pipeline.answer_iterate hready, hitems, hcollect]
    rfl
  · exact toIdList_of_fits hg hsource hfits hid

/-- Whatever is demanded of a query, there are only elements of its kind and faults. -/
theorem hasItem_serveAll (hg : g.WellFormed) {calls : List Call} {p : Pipeline}
    (hp : (build g calls).outcome = .ok p) {demands : List Demand} {answer : Answer}
    (hanswer : answer ∈ p.serveAll g demands) :
    ∀ item ∈ answer.results, g.HasItem True (kindOf calls) item := by
  intro item hitem
  rcases calls_of_outcome_ok hp with rfl | ⟨first, steps, source, rfl, hsource⟩
  · obtain rfl : Pipeline.empty = p := Except.ok.inj hp
    rw [Pipeline.results_serveAll_empty hanswer hitem]
    exact ⟨trivial, _, rfl⟩
  · obtain ⟨hready, hitems⟩ := items_of_outcome_build hsource hp
    rw [Pipeline.serveAll_eq_readAll hready, hitems] at hanswer
    rw [kindOf_build hsource]
    exact hasItem_denote hg hsource (.inr trivial) item (Demand.mem_of_mem_readAll hanswer hitem)

end Query

/-- **Traversals are sound for kinds.** At every point of every query, which is the end of the
query that the calls before it build, there are only elements of the kind that these calls lead to,
and faults of the traversal: vertices and edges have their place in the graph, and nothing ever
looks for one that it does not have. A query that starts from known ids and whose steps all accept
the kinds before them has no faults, either. -/
theorem Graph.Reachable.kind_sound {g : Graph} (hg : g.Reachable) :
    (∀ calls more p, (Query.build g (calls ++ more)).outcome = .ok p →
      ∃ before, (Query.build g calls).outcome = .ok before ∧
        p.pipes.drop more.length = before.pipes ∧
        ∀ demands, ∀ answer ∈ before.serveAll g demands, ∀ item ∈ answer.results,
          g.HasItem True (Query.kindOf calls) item) ∧
    ∀ (first : Call) (steps : List Step), first.Starts g → Kind.vertex.fits steps = true →
      (Query.build g (first :: steps.map .step)).Faultless g (Kind.vertex.after steps) := by
  refine ⟨fun calls more p hp ↦ ?_, fun first steps hfirst hfits ↦ ?_⟩
  · obtain ⟨before, hbefore, hpipes⟩ := Query.outcome_build_append_ok hp
    exact ⟨before, hbefore, hpipes, fun demands answer hanswer ↦
      Query.hasItem_serveAll hg.wellFormed hbefore hanswer⟩
  · obtain ⟨source, hsource⟩ := hfirst.exists_source hg.wellFormed
    exact Query.faultless_build hg.wellFormed hsource hfits

theorem Graph.kind_sound_disguised :
    let steps : List Step := [.bothEdges [], .sources, .properties true, .properties true,
      .has "_label" (.text "page"), .distinct, .id]
    let first : Call := .ofIds [.number 18446744073709551615, .name "b"]
    disguised.Reachable ∧
    (Query.build disguised (first :: steps.map .step)).Faultless disguised .id ∧
    ((Query.build disguised (first :: steps.map .step)).toList disguised).1
      = .ok [.id (.number 18446744073709551615)] ∧
    ∃ p, (Query.build disguised [.vertices, .step (.out []), .step .targets]).outcome = .ok p ∧
      p.serveAll disguised [.next, .next]
        = [.element (.error (.invalidState (.edgesExpected "in_v" .vertex))),
          .element (.ok none)] ∧
      ∀ demands, ∀ answer ∈ p.serveAll disguised demands, ∀ item ∈ answer.results,
        disguised.HasItem True .vertex item := by
  intro steps first
  obtain ⟨hpoints, hfaultless⟩ := reachable_disguised.kind_sound
  have hknown : ∀ id ∈ [ElementId.number 18446744073709551615, .name "b"],
      id ∈ disguised.ids := by decide +kernel
  refine ⟨reachable_disguised, ?_, by decide +kernel, ?_⟩
  · exact hfaultless first steps hknown (by decide)
  · obtain ⟨p, hp, -, hitems⟩ := hpoints [.vertices, .step (.out []), .step .targets] [] _ rfl
    refine ⟨p, hp, ?_, hitems⟩
    rw [← Except.ok.inj hp]
    decide +kernel

end BookmarkGraph
