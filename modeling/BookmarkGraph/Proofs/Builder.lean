import BookmarkGraph.Proofs.Query

/-!
# What a sequence of builder calls amounts to

A sequence of calls builds a traversal exactly when the first call is a start that finds its ids and
all others are steps. What it builds is a chain of fresh pipes, one for the start and one for each
step, over the vertices of the start. So a query is no more than a source and a list of steps, and
every property of queries is one of denotations.
-/

namespace BookmarkGraph

/-- A traversal starts from vertices of the graph. -/
theorem Call.source_spec {g : Graph} (hg : g.WellFormed) {first : Call} {source : List Element}
    (h : first.source g = .ok source) : ∀ x ∈ source, ∃ index, x = .vertex index ∧ g.Has index := by
  intro x hx
  cases first with
  | vertices =>
    rw [← Except.ok.inj h] at hx
    obtain ⟨index, hindex, rfl⟩ := List.mem_map.mp hx
    exact ⟨index, rfl, Graph.has_vertexIndices hg.vertices_le index hindex⟩
  | ofIds ids =>
    rw [Call.source] at h
    cases hids : ids.mapM g.getVertex with
    | error e =>
      rw [hids] at h
      cases h
    | ok indices =>
      rw [hids] at h
      rw [← Except.ok.inj h] at hx
      obtain ⟨index, hindex, rfl⟩ := List.mem_map.mp hx
      obtain ⟨id, -, hget⟩ := exists_of_mem_mapM hids hindex
      rw [Graph.getVertex] at hget
      split at hget
      · rename_i found hfind
        obtain ⟨v, hv, -⟩ := hg.vertex_of_find? hfind
        rw [← Except.ok.inj hget]
        exact ⟨found, rfl, v, hv⟩
      · cases hget
  | step step => cases h

theorem Graph.exists_getVertex {g : Graph} {id : ElementId} (h : g.hasId id = true) :
    ∃ index, g.getVertex id = .ok index := by
  obtain ⟨index, hindex⟩ := Option.isSome_iff_exists.mp h
  exact ⟨index, by rw [getVertex, find?, hindex]⟩

/-- The call starts a traversal, from ids that the graph knows. -/
def Call.Starts (g : Graph) : Call → Prop
  | .vertices => True
  | .ofIds ids => ∀ id ∈ ids, id ∈ g.ids
  | .step _ => False

theorem Call.Starts.exists_source {g : Graph} (hg : g.WellFormed) {first : Call}
    (h : first.Starts g) : ∃ source, first.source g = .ok source := by
  cases first with
  | vertices => exact ⟨_, rfl⟩
  | step s => exact absurd h id
  | ofIds ids =>
    obtain ⟨indices, hindices⟩ := exists_mapM_eq_ok fun id hid ↦
      Graph.exists_getVertex (hg.hasId_eq_true.mpr (h id hid))
    refine ⟨indices.map .vertex, ?_⟩
    rw [source, hindices]
    rfl

theorem denote_identity (g : Graph) (steps : List Step) (source : List Element) :
    denote g (.identity :: steps) source = denote g steps source := by
  rw [denote, List.foldl_cons, items_identity, ← denote]

theorem denote_start (g : Graph) (vs : List VertexIndex) :
    denote g [.identity] (vs.map .vertex) = vertexItems vs := by
  rw [denote_identity]
  exact List.map_map

namespace Query

variable {g : Graph} {q : Query} {first : Call} {steps : List Step} {source : List Element}

/-! ## Successful sequences -/

theorem build_append (g : Graph) (calls more : List Call) :
    build g (calls ++ more) = more.foldl (call g) (build g calls) := List.foldl_append

theorem outcome_call_error {e : GraphError} (h : q.outcome = .error e) (c : Call) :
    (q.call g c).outcome = .error e := by
  cases c with
  | vertices => simp only [call, vertices, start, h]
  | ofIds ids => simp only [call, ofIds, h]
  | step step => simp only [call, push, h]

theorem outcome_start_of_started {p : Pipeline} (hq : q.outcome = .ok p) (hpipes : p.pipes ≠ []) :
    (q.start source).outcome = .error (.invalidState .secondStart) := by
  simp only [start, hq, List.isEmpty_iff, if_neg hpipes]

theorem step_of_call_ok {p p' : Pipeline} (hq : q.outcome = .ok p) (hpipes : p.pipes ≠ [])
    {c : Call} (h : (q.call g c).outcome = .ok p') : ∃ step, c = .step step := by
  have hsecond : ∀ source, (q.start source).outcome = .error (.invalidState .secondStart) :=
    fun source ↦ outcome_start_of_started hq hpipes
  cases c with
  | vertices =>
    rw [call, vertices, hsecond] at h
    cases h
  | ofIds ids =>
    rw [call, ofIds, hq] at h
    dsimp only at h
    split at h
    · cases h
    · rw [hsecond] at h
      cases h
  | step step => exact ⟨step, rfl⟩

/-- A sequence of calls that builds a traversal is a start and the steps that follow it. -/
theorem calls_of_outcome_ok {calls : List Call} {p : Pipeline}
    (h : (build g calls).outcome = .ok p) :
    calls = [] ∨ ∃ first, ∃ steps : List Step, ∃ source, calls = first :: steps.map .step ∧
      first.source g = .ok source := by
  induction calls using List.reverseRecOn generalizing p with
  | nil => exact .inl rfl
  | append_singleton calls c ih =>
    have hcall : build g (calls ++ [c]) = (build g calls).call g c := build_append g calls [c]
    rw [hcall] at h
    cases hq : (build g calls).outcome with
    | error e =>
      rw [outcome_call_error hq] at h
      cases h
    | ok p' =>
      refine .inr ?_
      rcases ih hq with rfl | ⟨first, steps, source, rfl, hsource⟩
      · rw [build, List.foldl_nil, outcome_call_empty] at h
        cases hfirst : c.source g with
        | error e =>
          rw [hfirst] at h
          cases h
        | ok source => exact ⟨c, [], source, rfl, hfirst⟩
      · have hready := Pipeline.ready_ofSteps (List.cons_ne_nil Step.identity steps) source
        have hbuilt := outcome_build_start hsource steps
        obtain ⟨step, rfl⟩ := step_of_call_ok hbuilt (Pipeline.ready_eq_ok.mp hready).1 h
        exact ⟨first, steps ++ [step], source, by rw [List.map_append]; rfl, hsource⟩

theorem outcome_call_ok {c : Call} {p : Pipeline} (h : (q.call g c).outcome = .ok p) :
    ∃ before, q.outcome = .ok before ∧ p.pipes.tail = before.pipes := by
  cases hq : q.outcome with
  | error e =>
    rw [outcome_call_error hq] at h
    cases h
  | ok before =>
    refine ⟨before, rfl, ?_⟩
    have hstart : ∀ source, (q.start source).outcome = .ok p → p.pipes.tail = before.pipes := by
      intro source h
      simp only [start, hq] at h
      split at h
      · rename_i hempty
        rw [← Except.ok.inj h, List.isEmpty_iff.mp hempty]
        change Pipeline.emptyInnermost before.pipes = []
        rw [List.isEmpty_iff.mp hempty]
        rfl
      · cases h
    cases c with
    | vertices => exact hstart _ h
    | ofIds ids =>
      rw [call, ofIds, hq] at h
      dsimp only at h
      split at h
      · cases h
      · exact hstart _ h
    | step step =>
      simp only [call, push, hq] at h
      split at h
      · cases h
      · rw [← Except.ok.inj h]
        rfl

/-- The first calls of a sequence build the pipes up to where they end. -/
theorem outcome_build_append_ok {calls more : List Call} {p : Pipeline}
    (h : (build g (calls ++ more)).outcome = .ok p) :
    ∃ before, (build g calls).outcome = .ok before ∧ p.pipes.drop more.length = before.pipes := by
  induction more using List.reverseRecOn generalizing p with
  | nil => exact ⟨p, List.append_nil calls ▸ h, rfl⟩
  | append_singleton more c ih =>
    rw [← List.append_assoc, build_append] at h
    obtain ⟨between, hbetween, htail⟩ := outcome_call_ok h
    obtain ⟨before, hbefore, hdrop⟩ := ih hbetween
    refine ⟨before, hbefore, ?_⟩
    rw [List.length_append, List.length_singleton, Nat.add_comm, ← List.drop_drop, List.drop_one,
      htail, hdrop]

/-! ## Answers -/

theorem outcome_build_append_error {calls : List Call} {e : GraphError}
    (h : (build g calls).outcome = .error e) (more : List Call) :
    (build g (calls ++ more)).outcome = .error e := by
  rw [build_append]
  generalize build g calls = q at h
  induction more generalizing q with
  | nil => exact h
  | cons c more ih => exact ih _ (outcome_call_error h c)

theorem items_of_outcome_build (h : first.source g = .ok source) {p : Pipeline}
    (hp : (build g (first :: steps.map .step)).outcome = .ok p) :
    p.ready = .ok () ∧ p.items g = denote g steps source := by
  rw [outcome_build_start h] at hp
  rw [← Except.ok.inj hp]
  refine ⟨Pipeline.ready_ofSteps (List.cons_ne_nil Step.identity steps) source, ?_⟩
  rw [Pipeline.items_ofSteps, denote_identity]

theorem toList_build_start (h : first.source g = .ok source) (steps : List Step) :
    ((build g (first :: steps.map .step)).toList g).1 = collect (denote g steps source) := by
  rw [toList_of_outcome (outcome_build_start h steps) (List.cons_ne_nil _ _), denote_identity]

theorem count_build_start (h : first.source g = .ok source) (steps : List Step) :
    ((build g (first :: steps.map .step)).count g).1
      = (collect (denote g steps source)).map List.length := by
  rw [count_of_outcome (outcome_build_start h steps) (List.cons_ne_nil _ _), denote_identity]

theorem toList_error {e : GraphError} (h : q.outcome = .error e) : (q.toList g).1 = .error e := by
  rw [toList, run, h]

end Query

end BookmarkGraph
