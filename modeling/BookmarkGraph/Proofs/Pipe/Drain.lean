import BookmarkGraph.Proofs.Pipe.Request
import BookmarkGraph.Proofs.Pipe.Remaining

/-!
# Requests to a pipeline

What a pipeline still delivers is one list of items, and every operation reads it from the front:
`next` takes the first item, asking ahead takes nothing unless the first item is an error, and the
drains take everything up to the first error.

## Asking ahead

`peekEnd_cases` compares asking with taking. Either the element is there, stays in the last pipe and
is what a request would have handed over, or asking is the same as a request. The two drains, of
which only one asks first, therefore agree in everything that they leave behind.
-/

namespace BookmarkGraph

/-- A request leaves in front of the last pipe's consumer either nothing or the end. -/
theorem Pulls.ahead {g : Graph} {pipes : List Pipe} {origin : Origin} {r : Pulled}
    (h : Pulls g pipes origin r) (hpipes : pipes ≠ []) :
    ∃ stage rest, r.pipes = ⟨stage, if r.result.isSome then .empty else .exhausted⟩ :: rest := by
  induction h with
  | origin origin => exact absurd rfl hpipes
  | again _ _ _ _ _ ihagain => exact ihagain (List.cons_ne_nil _ _)
  | buffered | exhausted | finish | give | ended | failed | answered => exact ⟨_, _, rfl⟩

/-! ## Lists of items -/

theorem collect_ok (x : Element) (items : List Item) :
    collect (.ok x :: items) = (collect items).map (x :: ·) := by
  rw [collect, List.mapM_cons, ← collect]
  cases collect items <;> rfl

theorem eq_map_of_collect {items : List Item} {xs : List Element} (h : collect items = .ok xs) :
    items = xs.map .ok := by
  induction items generalizing xs with
  | nil =>
    rw [← Except.ok.inj h]
    rfl
  | cons item rest ih =>
    cases item with
    | error e => cases h
    | ok x =>
      rw [collect_ok] at h
      cases hrest : collect rest with
      | error e => rw [hrest] at h; cases h
      | ok ys =>
        rw [hrest] at h
        rw [← Except.ok.inj h, List.map_cons, ih hrest]

theorem mem_of_collect {items : List Item} {e : GraphError} (h : collect items = .error e) :
    .error e ∈ items := by
  induction items with
  | nil => cases h
  | cons item rest ih =>
    cases item with
    | error e' =>
      rw [Except.error.inj (h : Except.error e' = _)]
      exact List.mem_cons_self
    | ok x =>
      rw [collect_ok] at h
      cases hrest : collect rest with
      | error e' =>
        rw [hrest] at h
        exact List.mem_cons_of_mem _ (ih (hrest.trans (congrArg _ (Except.error.inj h))))
      | ok ys => rw [hrest] at h; cases h

/-- Everything up to the first error, and the error itself. -/
def throughError : List Item → List Item
  | [] => []
  | .error e :: _ => [.error e]
  | .ok x :: rest => .ok x :: throughError rest

/-- The first item if it is an error. -/
def errorInFront : List Item → List Item
  | .error e :: _ => [.error e]
  | _ => []

namespace Pipeline

/-! ## Items -/

/-- The items that a pipeline will deliver. -/
def items (g : Graph) (p : Pipeline) : List Item := remaining g p.pipes p.origin

/-- The answer of a request that meets an item, or the end. -/
def answerOf : Option Item → Except GraphError (Option Element)
  | none => .ok none
  | some (.ok x) => .ok (some x)
  | some (.error e) => .error e

theorem answerOf_eq_none {items : List Item} :
    answerOf items.head? = .ok none ↔ items = [] := by
  rcases items with _ | ⟨_ | x, rest⟩ <;> simp [answerOf]

theorem answerOf_eq_some {items : List Item} {x : Element} :
    answerOf items.head? = .ok (some x) ↔ ∃ rest, items = .ok x :: rest := by
  rcases items with _ | ⟨_ | y, rest⟩ <;> simp [answerOf]

theorem answerOf_eq_error {items : List Item} {e : GraphError} :
    answerOf items.head? = .error e ↔ ∃ rest, items = .error e :: rest := by
  rcases items with _ | ⟨_ | y, rest⟩ <;> simp [answerOf]

theorem ready_eq_ok {p : Pipeline} :
    p.ready = .ok () ↔ p.pipes ≠ [] ∧ p.origin.isBound = true := by
  rw [ready]
  cases p.pipes with
  | nil => simp [throw, throwThe, MonadExceptOf.throw]
  | cons pipe rest =>
    cases p.origin.isBound <;> simp [throw, throwThe, MonadExceptOf.throw, pure, Except.pure]

theorem guarded_of_ready {α : Type} {p : Pipeline} (h : p.ready = .ok ())
    (operation : Pipeline → Run α) : p.guarded operation = operation p := by
  rw [guarded, h]

section Taking

variable {g : Graph} {p : Pipeline}

theorem answer_pullEnd : (p.pullEnd g).answer = answerOf (pull g p.pipes p.origin).val.result := rfl

theorem ready_pullEnd (h : p.ready = .ok ()) : (p.pullEnd g).pipeline.ready = .ok () := by
  obtain ⟨hpipes, hbound⟩ := ready_eq_ok.mp h
  have hpulls := pulls_pull g p.pipes p.origin
  obtain ⟨stage, rest, hrest⟩ := hpulls.ahead hpipes
  refine ready_eq_ok.mpr ⟨?_, (hpulls.head_tail hbound).1⟩
  rw [pullEnd, hrest]
  exact List.cons_ne_nil _ _

theorem answer_pullEnd_of_ready (h : p.ready = .ok ()) :
    (p.pullEnd g).answer = answerOf (p.items g).head? := by
  have hpulls := pulls_pull g p.pipes p.origin
  rw [answer_pullEnd, (hpulls.head_tail (ready_eq_ok.mp h).2).2.1, items]

theorem items_pullEnd (h : p.ready = .ok ()) :
    (p.pullEnd g).pipeline.items g = (p.items g).tail :=
  ((pulls_pull g p.pipes p.origin).head_tail (ready_eq_ok.mp h).2).2.2

theorem next_of_ready (h : p.ready = .ok ()) : p.next g = p.pullEnd g := guarded_of_ready h _

/-- The pipeline after some requests, whatever they answered. -/
def afterNexts (g : Graph) (p : Pipeline) : Nat → Pipeline
  | 0 => p
  | n + 1 => (p.next g).pipeline.afterNexts g n

/-- Requests hand over the items one after the other, errors in their places. -/
theorem afterNexts_spec (n : Nat) (h : p.ready = .ok ()) :
    (p.afterNexts g n).ready = .ok () ∧ (p.afterNexts g n).items g = (p.items g).drop n := by
  induction n generalizing p with
  | zero => exact ⟨h, rfl⟩
  | succ n ih =>
    obtain ⟨hready, hitems⟩ := ih (next_of_ready h ▸ ready_pullEnd (g := g) h)
    refine ⟨hready, ?_⟩
    rw [afterNexts, hitems, next_of_ready h, items_pullEnd h, List.drop_tail]

theorem answer_next_afterNexts (n : Nat) (h : p.ready = .ok ()) :
    ((p.afterNexts g n).next g).answer = answerOf (p.items g)[n]? := by
  obtain ⟨hready, hitems⟩ := afterNexts_spec (g := g) n h
  rw [next_of_ready hready, answer_pullEnd_of_ready hready, hitems, List.head?_drop]

end Taking

/-! ## Asking ahead -/

section Asking

variable {g : Graph} {p : Pipeline}

theorem pullEnd_of_buffered {x : Element} (h : p.lookAhead = .buffered x) :
    p.items g = .ok x :: (p.pullEnd g).pipeline.items g ∧ (p.pullEnd g).answer = .ok (some x) ∧
      (p.pullEnd g).seen = [] := by
  obtain ⟨pipes, origin⟩ := p
  cases pipes with
  | nil => simp [lookAhead] at h
  | cons pipe rest =>
    obtain ⟨stage, ahead⟩ := pipe
    obtain rfl : ahead = .buffered x := h
    rw [pullEnd, pull_cons]
    exact ⟨rfl, rfl, rfl⟩

theorem pullEnd_of_exhausted (h : p.lookAhead = .exhausted) :
    p.pullEnd g = ⟨.ok none, p, []⟩ := by
  obtain ⟨pipes, origin⟩ := p
  cases pipes with
  | nil => simp [lookAhead] at h
  | cons pipe rest =>
    obtain ⟨stage, ahead⟩ := pipe
    obtain rfl : ahead = .exhausted := h
    rw [pullEnd, pull_cons]

def putBack (p : Pipeline) (x : Element) : Pipeline := { p with pipes := buffer x p.pipes }

theorem pullEnd_putBack {x : Element} {stage : Stage} {rest : List Pipe}
    (h : p.pipes = ⟨stage, .empty⟩ :: rest) : (p.putBack x).pullEnd g = ⟨.ok (some x), p, []⟩ := by
  obtain ⟨pipes, origin⟩ := p
  obtain rfl : pipes = ⟨stage, .empty⟩ :: rest := h
  rw [pullEnd, putBack, buffer, pull_cons]

/-- **Asking compared with taking.** Either the element that a request would hand over is kept in
the last pipe, from which the next request takes it, or asking is the same as a request. -/
theorem peekEnd_cases (hpipes : p.pipes ≠ []) :
    (∃ x, (p.peekEnd g).answer = .ok true ∧ (p.pullEnd g).answer = .ok (some x) ∧
      (p.peekEnd g).pipeline.lookAhead = .buffered x ∧
      ((p.peekEnd g).pipeline.pullEnd g).pipeline = (p.pullEnd g).pipeline ∧
      (p.peekEnd g).seen = (p.pullEnd g).seen) ∨
    (p.peekEnd g).pipeline = (p.pullEnd g).pipeline ∧ (p.peekEnd g).seen = (p.pullEnd g).seen ∧
      ((p.peekEnd g).answer = .ok false ∧ (p.pullEnd g).answer = .ok none ∧
          (p.peekEnd g).pipeline.lookAhead = .exhausted ∨
        ∃ e, (p.peekEnd g).answer = .error e ∧ (p.pullEnd g).answer = .error e) := by
  cases hahead : p.lookAhead with
  | buffered x =>
    obtain ⟨-, hanswer, hseen⟩ := pullEnd_of_buffered (g := g) hahead
    rw [peekEnd, hahead]
    exact .inl ⟨x, rfl, hanswer, hahead, rfl, hseen.symm⟩
  | exhausted =>
    rw [peekEnd, hahead, pullEnd_of_exhausted hahead]
    exact .inr ⟨rfl, rfl, .inl ⟨rfl, rfl, hahead⟩⟩
  | empty =>
    -- only here does asking run the chain, and it runs it as a request does
    obtain ⟨stage, rest, hlast⟩ := (pulls_pull g p.pipes p.origin).ahead hpipes
    change (p.pullEnd g).pipeline.pipes = _ at hlast
    rw [peekEnd, hahead]
    cases hresult : (pull g p.pipes p.origin).val.result with
    | none =>
      rw [hresult] at hlast
      simp only [answer_pullEnd, hresult, answerOf]
      refine .inr ⟨trivial, trivial, .inl ⟨trivial, trivial, ?_⟩⟩
      rw [lookAhead, hlast]
      rfl
    | some item =>
      rw [hresult] at hlast
      cases item with
      | error e =>
        simp only [answer_pullEnd, hresult, answerOf]
        exact .inr ⟨trivial, trivial, .inr ⟨e, rfl, rfl⟩⟩
      | ok x =>
        simp only [answer_pullEnd, hresult, answerOf]
        refine .inl ⟨x, trivial, rfl, ?_, ?_, trivial⟩
        · rw [lookAhead, hlast]
          rfl
        · have htake := congrArg Run.pipeline (pullEnd_putBack (g := g) (x := x) hlast)
          exact htake

theorem ready_of_buffered {x : Element} (h : p.lookAhead = .buffered x)
    (hafter : (p.pullEnd g).pipeline.ready = .ok ()) : p.ready = .ok () := by
  obtain ⟨pipes, origin⟩ := p
  cases pipes with
  | nil => simp [lookAhead] at h
  | cons pipe rest =>
    obtain ⟨stage, ahead⟩ := pipe
    obtain rfl : ahead = .buffered x := h
    rw [pullEnd, pull_cons] at hafter
    exact ready_eq_ok.mpr ⟨List.cons_ne_nil _ _, (ready_eq_ok.mp hafter).2⟩

theorem ready_peekEnd (h : p.ready = .ok ()) : (p.peekEnd g).pipeline.ready = .ok () := by
  have hready := ready_pullEnd (g := g) h
  rcases peekEnd_cases (g := g) (ready_eq_ok.mp h).1 with
    ⟨x, -, -, hahead, hafter, -⟩ | ⟨hafter, -, -⟩
  · exact ready_of_buffered hahead (hafter ▸ hready)
  · exact hafter ▸ hready

def askAnswer : List Item → Except GraphError Bool
  | [] => .ok false
  | .ok _ :: _ => .ok true
  | .error e :: _ => .error e

/-- Asking tells whether there is a first item, and takes it only if it is an error. -/
theorem peekEnd_spec (h : p.ready = .ok ()) :
    (p.peekEnd g).answer = askAnswer (p.items g) ∧
      (p.peekEnd g).pipeline.items g = (p.items g).drop (errorInFront (p.items g)).length := by
  have hanswer := answer_pullEnd_of_ready (g := g) h
  have hitems := items_pullEnd (g := g) h
  rcases peekEnd_cases (g := g) (ready_eq_ok.mp h).1 with
    ⟨x, hpeek, hpull, hahead, hafter, -⟩ | ⟨hafter, -, ⟨hpeek, hpull, -⟩ | ⟨e, hpeek, hpull⟩⟩
  · obtain ⟨rest, hlist⟩ := answerOf_eq_some.mp (hanswer ▸ hpull)
    rw [hpeek, (pullEnd_of_buffered hahead).1, hafter, hitems, hlist]
    exact ⟨rfl, rfl⟩
  · have hlist := answerOf_eq_none.mp (hanswer ▸ hpull)
    rw [hpeek, hafter, hitems, hlist]
    exact ⟨rfl, rfl⟩
  · obtain ⟨rest, hlist⟩ := answerOf_eq_error.mp (hanswer ▸ hpull)
    rw [hpeek, hafter, hitems, hlist]
    exact ⟨rfl, rfl⟩

end Asking

/-! ## The drains -/

section Draining

variable {g : Graph} {p : Pipeline}

theorem drainCount_eq (g : Graph) (p : Pipeline) :
    p.drainCount g =
      match (p.pullEnd g).answer with
      | .error e => { p.pullEnd g with answer := .error e }
      | .ok none => { p.pullEnd g with answer := .ok 0 }
      | .ok (some _) =>
        let rest := (p.pullEnd g).pipeline.drainCount g
        ⟨rest.answer.map (· + 1), rest.pipeline, (p.pullEnd g).seen ++ rest.seen⟩ := by
  rw [drainCount]
  split <;> rename_i hanswer <;> simp only [hanswer]

theorem drain_eq (g : Graph) (p : Pipeline) :
    p.drain g =
      match (p.peekEnd g).answer with
      | .error e => { p.peekEnd g with answer := .error e }
      | .ok false => { p.peekEnd g with answer := .ok [] }
      | .ok true =>
        let run := (p.peekEnd g).pipeline.pullEnd g
        match run.answer with
        | .error e => { run with answer := .error e, seen := (p.peekEnd g).seen ++ run.seen }
        | .ok none => { run with answer := .ok [], seen := (p.peekEnd g).seen ++ run.seen }
        | .ok (some x) =>
          let rest := run.pipeline.drain g
          ⟨rest.answer.map (x :: ·), rest.pipeline,
            (p.peekEnd g).seen ++ run.seen ++ rest.seen⟩ := by
  rw [drain]
  split <;> rename_i hasked <;> simp only [hasked]
  split <;> rename_i htaken <;> simp only [htaken]

/-- A drain that asks before it takes goes through the same states as one that only takes. -/
theorem drain_eq_taking (hpipes : p.pipes ≠ []) :
    p.drain g =
      match (p.pullEnd g).answer with
      | .error e => { p.pullEnd g with answer := .error e }
      | .ok none => { p.pullEnd g with answer := .ok [] }
      | .ok (some x) =>
        let rest := (p.pullEnd g).pipeline.drain g
        ⟨rest.answer.map (x :: ·), rest.pipeline, (p.pullEnd g).seen ++ rest.seen⟩ := by
  rw [drain_eq]
  rcases peekEnd_cases (g := g) hpipes with
    ⟨x, hpeek, hpull, hahead, hafter, hseen⟩ |
    ⟨hafter, hseen, ⟨hpeek, hpull, -⟩ | ⟨e, hpeek, hpull⟩⟩
  · obtain ⟨-, htake, hquiet⟩ := pullEnd_of_buffered (g := g) hahead
    simp only [hpeek, hpull, htake, hafter, hseen, hquiet, List.append_nil]
  · simp only [hpeek, hpull, hafter, hseen]
  · simp only [hpeek, hpull, hafter, hseen]

/-- **The drains agree.** Counting answers with the length of the list, or with its error, shows
the same to observers and leaves the same pipeline. -/
theorem drainCount_eq_drain (h : p.ready = .ok ()) :
    p.drainCount g =
      ⟨(p.drain g).answer.map List.length, (p.drain g).pipeline, (p.drain g).seen⟩ := by
  -- the pipelines change along the way; what gets shorter is the list of items
  induction hitems : p.items g generalizing p with
  | nil =>
    have hpull := answer_pullEnd_of_ready (g := g) h
    rw [hitems] at hpull
    simp only [drainCount_eq, drain_eq_taking (ready_eq_ok.mp h).1, hpull, List.head?_nil, answerOf]
    rfl
  | cons item rest ih =>
    have hpull := answer_pullEnd_of_ready (g := g) h
    rw [hitems] at hpull
    have hrest := items_pullEnd (g := g) h
    rw [hitems] at hrest
    simp only [drainCount_eq g p, drain_eq_taking (ready_eq_ok.mp h).1, hpull]
    cases item with
    | error e => rfl
    | ok x =>
      simp only [List.head?_cons, answerOf, ih (ready_pullEnd h) hrest]
      cases ((p.pullEnd g).pipeline.drain g).answer <;> rfl

/-- A drain takes everything through the first error, and answers with the error if there is one. -/
theorem drain_spec (h : p.ready = .ok ()) :
    (p.drain g).answer = collect (p.items g) ∧
      (p.drain g).pipeline.items g = (p.items g).drop (throughError (p.items g)).length ∧
      (p.drain g).pipeline.ready = .ok () := by
  induction hitems : p.items g generalizing p with
  | nil =>
    have hpull := answer_pullEnd_of_ready (g := g) h
    have hrest := items_pullEnd (g := g) h
    rw [hitems] at hpull hrest
    simp only [drain_eq_taking (ready_eq_ok.mp h).1, hpull, List.head?_nil, answerOf]
    exact ⟨rfl, hrest, ready_pullEnd h⟩
  | cons item rest ih =>
    have hpull := answer_pullEnd_of_ready (g := g) h
    have hrest := items_pullEnd (g := g) h
    rw [hitems] at hpull hrest
    simp only [drain_eq_taking (ready_eq_ok.mp h).1, hpull]
    cases item with
    | error e => exact ⟨rfl, hrest, ready_pullEnd h⟩
    | ok x =>
      obtain ⟨hanswer, hafter, hready⟩ := ih (ready_pullEnd h) hrest
      simp only [List.head?_cons, answerOf]
      rw [hanswer, collect_ok]
      exact ⟨rfl, hafter, hready⟩

theorem answer_toList (h : p.ready = .ok ()) : (p.toList g).answer = collect (p.items g) := by
  rw [toList, guarded_of_ready h, (drain_spec h).1]

theorem answer_count (h : p.ready = .ok ()) :
    (p.count g).answer = (collect (p.items g)).map List.length := by
  rw [count, guarded_of_ready h, drainCount_eq_drain h, (drain_spec h).1]

theorem answer_iterate (h : p.ready = .ok ()) :
    (p.iterate g).answer = (collect (p.items g)).map fun _ ↦ () := by
  rw [iterate, answer_count h]
  cases collect (p.items g) <;> rfl

end Draining

end Pipeline

end BookmarkGraph
