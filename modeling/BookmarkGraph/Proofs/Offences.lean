import BookmarkGraph.Proofs.Builder

/-!
# Mistakes in building a traversal

Three calls are mistakes wherever they stand in a sequence: a start from ids of which the graph does
not know one, a second start, and a step before the first start. What makes them so can be read off
the calls in front, `Call.fault`, so a sequence has a list of `Query.offences` that says nothing
about how a query keeps its state.

A query keeps the first of them. Every call either finds a traversal without mistakes, and then it
makes one itself or appends one pipe, or it finds an error and leaves it. The invariant of the
induction is that a traversal has been started exactly if it has a pipe.
-/

namespace BookmarkGraph

namespace Call

def isStart : Call → Bool
  | vertices | ofIds _ => true
  | step _ => false

/-- The name of the step that the call appends; a start appends one that passes everything. -/
def name : Call → String
  | vertices | ofIds _ => Step.identity.name
  | step s => s.name

/-- What is wrong with a call when a traversal has been started before or not. Ids are looked up
before anything else is checked. -/
def fault (g : Graph) (started : Bool) : Call → Option GraphError
  | vertices => if started then some (.invalidState .secondStart) else none
  | ofIds ids =>
    match ids.find? (!g.hasId ·) with
    | some id => some (.notFound id)
    | none => if started then some (.invalidState .secondStart) else none
  | step s => if started then none else some (.invalidState (.stepBeforeStart s.name))

end Call

namespace Query

/-- The mistakes in a sequence of calls, in the order of the calls that make them. -/
def offences (g : Graph) (calls : List Call) : List GraphError :=
  (List.range calls.length).filterMap fun i ↦
    calls[i]?.bind fun c ↦ c.fault g ((calls.take i).any Call.isStart)

/-- However it is run, the query reports one error, and no observer sees an element. -/
structure Reports (g : Graph) (q : Query) (e : GraphError) : Prop where
  /-- There is no pipeline to go on with. -/
  toPipeline : q.toPipeline = .error e
  /-- There is no list of elements. -/
  toList : q.toList g = (.error e, [])
  /-- There is no list of ids. -/
  toIdList : q.toIdList g = (.error e, [])
  /-- There is no number of elements. -/
  count : q.count g = (.error e, [])
  /-- Nothing is run for the observers. -/
  iterate : q.iterate g = (.error e, [])

variable {g : Graph} {q : Query} {p : Pipeline} {c : Call} {calls : List Call} {e : GraphError}

theorem reports_of_outcome (h : q.outcome = .error e) : q.Reports g e := by
  have hrun : ∀ {α : Type} {q : Query} (operation : Pipeline → Run α), q.outcome = .error e →
      q.run operation = (.error e, []) := by
    intro α q operation h
    rw [run, h]
  refine ⟨h, hrun _ h, ?_, hrun _ h, hrun _ h⟩
  have hlist : (q.push .id).toList g = (.error e, []) :=
    hrun _ (outcome_call_error (g := g) h (.step .id))
  rw [toIdList, hlist]
  rfl

/-- The last call of a sequence is judged by those in front of it. -/
theorem offences_append (g : Graph) (calls : List Call) (c : Call) :
    offences g (calls ++ [c])
      = offences g calls ++ (c.fault g (calls.any Call.isStart)).toList := by
  rw [offences, List.length_append, List.length_singleton, List.range_succ, List.filterMap_append]
  congr 1
  · refine List.filterMap_congr fun i hi ↦ ?_
    have hlt := List.mem_range.mp hi
    rw [List.getElem?_append_left hlt, List.take_append_of_le_length (Nat.le_of_lt hlt)]
  · rw [List.filterMap_cons, List.getElem?_concat_length, List.take_left, Option.bind_some,
      List.filterMap_nil]
    cases c.fault g (calls.any Call.isStart) <;> rfl

/-! ## One call -/

theorem mapM_getVertex_of_find? {ids : List ElementId} {id : ElementId}
    (h : ids.find? (!g.hasId ·) = some id) : ids.mapM g.getVertex = .error (.notFound id) := by
  obtain ⟨hid, before, after, rfl, hbefore⟩ := List.find?_eq_some_iff_append.mp h
  refine mapM_append_error (fun known hknown ↦ ?_) ?_ after
  · exact Graph.exists_getVertex (by simpa using hbefore known hknown)
  · rw [Graph.getVertex, Graph.hasId_eq_false.mp (by simpa using hid)]

theorem exists_mapM_getVertex {ids : List ElementId} (h : ids.find? (!g.hasId ·) = none) :
    ∃ indices, ids.mapM g.getVertex = .ok indices := by
  refine exists_mapM_eq_ok fun id hid ↦ Graph.exists_getVertex ?_
  simpa using List.find?_eq_none.mp h id hid

def stepNames (p : Pipeline) : List String := p.pipes.reverse.map Pipe.name

/-- What a query has kept: a mistake if there was one, and otherwise a pipeline with steps of the
given names. -/
def Kept (q : Query) (names : List String) : Option GraphError → Prop
  | some e => q.outcome = .error e
  | none => ∃ p, q.outcome = .ok p ∧ stepNames p = names

theorem kept_start (hq : q.outcome = .ok p) (source : List Element) :
    (q.start source).Kept (stepNames p ++ [Step.identity.name])
      (if !p.pipes.isEmpty then some (.invalidState .secondStart) else none) := by
  by_cases hpipes : p.pipes = []
  · rw [hpipes]
    refine ⟨(p.setStarts source).addStep .identity, ?_, ?_⟩
    · simp only [start, hq, hpipes, List.isEmpty_nil, if_true]
    · rw [stepNames, stepNames, Pipeline.addStep, Pipeline.addPipe, Pipeline.setStarts, hpipes]
      rfl
  · rw [List.isEmpty_eq_false_iff.mpr hpipes]
    exact outcome_start_of_started hq hpipes

theorem kept_push (hq : q.outcome = .ok p) (step : Step) :
    (q.push step).Kept (stepNames p ++ [step.name])
      (if !p.pipes.isEmpty then none else some (.invalidState (.stepBeforeStart step.name))) := by
  by_cases hpipes : p.pipes = []
  · rw [hpipes]
    change (q.push step).outcome = _
    simp only [push, hq, hpipes, List.isEmpty_nil, if_true]
  · rw [List.isEmpty_eq_false_iff.mpr hpipes]
    refine ⟨p.addStep step, ?_, ?_⟩
    · simp only [push, hq, List.isEmpty_iff, if_neg hpipes]
    · rw [stepNames, stepNames, Pipeline.addStep, Pipeline.addPipe, List.reverse_cons,
        List.map_append]
      cases step <;> rfl

theorem kept_call (hq : q.outcome = .ok p) (c : Call) :
    (q.call g c).Kept (stepNames p ++ [c.name]) (c.fault g (!p.pipes.isEmpty)) := by
  cases c with
  | vertices => exact kept_start hq _
  | step s => exact kept_push hq s
  | ofIds ids =>
    rw [call, ofIds, hq, Call.fault]
    cases hfind : ids.find? (!g.hasId ·) with
    | some id =>
      simp only [mapM_getVertex_of_find? hfind]
      rfl
    | none =>
      obtain ⟨indices, hindices⟩ := exists_mapM_getVertex hfind
      simp only [hindices]
      exact kept_start hq _

/-! ## All calls -/

theorem any_isStart_of_offences (h : offences g calls = []) :
    calls.any Call.isStart = !calls.isEmpty := by
  induction calls using List.reverseRecOn with
  | nil => rfl
  | append_singleton calls c ih =>
    rw [offences_append] at h
    obtain ⟨hbefore, hlast⟩ := List.append_eq_nil_iff.mp h
    rw [List.any_append, ih hbefore]
    rcases calls with _ | ⟨first, calls⟩
    · cases c with
      | vertices | ofIds _ => rfl
      | step s => simp [Call.fault] at hlast
    · rfl

theorem size_of_stepNames (h : stepNames p = calls.map Call.name) : p.size = calls.length := by
  have hlength := congrArg List.length h
  rwa [stepNames, List.length_map, List.length_reverse, List.length_map] at hlength

/-- A sequence of calls keeps the first mistake, or one pipe for each call. -/
theorem kept_build (g : Graph) (calls : List Call) :
    (build g calls).Kept (calls.map Call.name) (offences g calls).head? := by
  induction calls using List.reverseRecOn with
  | nil => exact ⟨.empty, rfl, rfl⟩
  | append_singleton calls c ih =>
    rw [offences_append, List.head?_append, List.map_append]
    cases hfirst : (offences g calls).head? with
    | some e =>
      rw [hfirst] at ih
      exact outcome_build_append_error ih [c]
    | none =>
      rw [hfirst] at ih
      obtain ⟨p, hp, hnames⟩ := ih
      have hempty : p.pipes.isEmpty = calls.isEmpty := by
        rw [Bool.eq_iff_iff, List.isEmpty_iff_length_eq_zero, List.isEmpty_iff_length_eq_zero,
          ← size_of_stepNames hnames, Pipeline.size]
      have hlast := kept_call (g := g) hp c
      rw [hempty, ← any_isStart_of_offences (List.head?_eq_none_iff.mp hfirst), hnames] at hlast
      rw [build_append, Option.none_or, Option.head?_toList]
      exact hlast

/-- **The first mistake decides.** Take any graph and any sequence of calls. If there are mistakes
among them, then the query reports the first of them however it is run, and no observer sees
anything, whatever calls follow the mistake. If there are none, and there is a call at all, then the
query is a pipeline of one pipe for each call, described by the names of their steps in the order of
the calls. The ids that a start may name without a mistake are those of the vertices, once the graph
was made by insertions. -/
theorem first_offence_decides (g : Graph) (calls : List Call) :
    (∀ e, (offences g calls).head? = some e → (build g calls).Reports g e) ∧
    (offences g calls = [] → calls ≠ [] →
      ∃ p, (build g calls).toPipeline = .ok p ∧ p.size = calls.length ∧
        p.describe = " -> ".intercalate (calls.map Call.name)) ∧
    (g.Reachable → ∀ id, g.hasId id = true ↔ ∃ index v, g.vertex index = .ok v ∧ v.id = id) := by
  have hkept := kept_build g calls
  refine ⟨fun e h ↦ ?_, fun h _ ↦ ?_, fun hg id ↦ hg.indexed.hasId_iff_vertex⟩
  · rw [h] at hkept
    exact reports_of_outcome hkept
  · rw [h] at hkept
    obtain ⟨p, hp, hnames⟩ := hkept
    exact ⟨p, hp, size_of_stepNames hnames, congrArg (" -> ".intercalate ·) hnames⟩

/-- A second start in front of other mistakes, one of two unknown ids behind a start, and a sequence
without mistakes. -/
theorem first_offence_decides_tangled :
    let restarted : List Call := [.ofIds [.number 1], .step .sideEffect, .step (.out []), .vertices,
      .ofIds [.name "x"], .step .id]
    let unknown : List Call := [.vertices, .step .sideEffect,
      .ofIds [.name "b", .name "x", .number 9], .vertices]
    let faultless : List Call := [.ofIds [.number 1], .step (.into ["links"]), .step .distinct]
    (offences .tangled restarted).head? = some (.invalidState .secondStart) ∧
      (build .tangled restarted).Reports .tangled (.invalidState .secondStart) ∧
      (offences .tangled unknown).head? = some (.notFound (.name "x")) ∧
      (build .tangled unknown).Reports .tangled (.notFound (.name "x")) ∧
      offences .tangled faultless = [] ∧ faultless ≠ [] ∧
      (∃ p, (build .tangled faultless).toPipeline = .ok p ∧ p.size = 3 ∧
        p.describe = "identity -> in -> distinct") ∧
      Graph.tangled.Reachable ∧
      ¬∃ index v, Graph.tangled.vertex index = .ok v ∧ v.id = .name "x" := by
  intro restarted unknown faultless
  have hrestarted : (offences .tangled restarted).head? = some (.invalidState .secondStart) := by
    decide +kernel
  have hunknown : (offences .tangled unknown).head? = some (.notFound (.name "x")) := by
    decide +kernel
  have hfaultless : offences .tangled faultless = [] := by decide +kernel
  have hcalls : faultless ≠ [] := List.cons_ne_nil _ _
  obtain ⟨p, hp, hsize, hdescribe⟩ :=
    (first_offence_decides .tangled faultless).2.1 hfaultless hcalls
  have hknown := (first_offence_decides .tangled faultless).2.2 Graph.reachable_tangled (.name "x")
  exact ⟨hrestarted, (first_offence_decides .tangled restarted).1 _ hrestarted, hunknown,
    (first_offence_decides .tangled unknown).1 _ hunknown, hfaultless, hcalls,
    ⟨p, hp, hsize, hdescribe.trans (by decide +kernel)⟩, Graph.reachable_tangled,
    fun hvertex ↦ absurd (hknown.mpr hvertex) (by decide +kernel)⟩

end Query

end BookmarkGraph
