import BookmarkGraph.Proofs.Pipe.Rebind

/-!
# Wiring in any order

Before the first demand, sources may be bound and pipes appended in any order and any number of
times. A source that comes before every pipe waits for the first one, a source that comes later is
handed to the first pipe through the whole chain, and a further source takes the place of the one
bound before. In the end only the steps in their order and the last source count. The same calls
keep the parts in memory in step, so the counter, the names and the check for a source, which go
through the boxes, say of a pipeline what the list of its pipes says.

A pipeline that lacks a pipe or a source refuses to be drained: nothing is shown to an observer and
nothing is taken from a source. No other pipeline refuses in this way. It may fail in the same
manner, but a fresh chain holds nothing, so an error is never met before an element has been taken
from the source: `Pulls.remaining_lt`.
-/

namespace BookmarkGraph

/-! ## Calls that wire -/

/-- A call that wires a pipeline. -/
inductive Wiring where
  /-- A source is bound. -/
  | bind (source : List Element)
  /-- A fresh pipe is appended. -/
  | append (step : Step)
deriving DecidableEq, Repr

namespace Wiring

def steps (calls : List Wiring) : List Step :=
  calls.filterMap fun
    | append step => some step
    | bind _ => none

def sources (calls : List Wiring) : List (List Element) :=
  calls.filterMap fun
    | bind source => some source
    | append _ => none

variable (calls : List Wiring) (step : Step) (source : List Element)

theorem steps_append : steps (calls ++ [.append step]) = steps calls ++ [step] :=
  List.filterMap_append

theorem steps_bind : steps (calls ++ [.bind source]) = steps calls :=
  List.filterMap_append.trans (List.append_nil _)

theorem sources_append : sources (calls ++ [.append step]) = sources calls :=
  List.filterMap_append.trans (List.append_nil _)

theorem sources_bind : sources (calls ++ [.bind source]) = sources calls ++ [source] :=
  List.filterMap_append

end Wiring

/-- The origin of a chain to which a source may have been bound. -/
def Origin.ofBound : Option (List Element) → Origin
  | none => unbound
  | some items => source (.ofList items)

namespace Pipeline

/-- Makes one call that wires. -/
def wire (p : Pipeline) : Wiring → Pipeline
  | .bind source => p.setStarts source
  | .append step => p.addStep step

/-- A new pipeline after calls that wire. -/
def wired (calls : List Wiring) : Pipeline := calls.foldl wire empty

theorem wired_concat (calls : List Wiring) (call : Wiring) :
    wired (calls ++ [call]) = (wired calls).wire call := by
  rw [wired, wired, List.foldl_append, List.foldl_cons, List.foldl_nil]

/-- Only the steps in their order and the last source count. -/
theorem wired_eq (calls : List Wiring) :
    wired calls = ⟨((Wiring.steps calls).map Step.pipe).reverse,
      .ofBound (Wiring.sources calls).getLast?⟩ := by
  induction calls using List.reverseRecOn with
  | nil => rfl
  | append_singleton calls call ih =>
    rw [wired_concat, ih]
    cases call with
    | bind source =>
      rw [Wiring.steps_bind, Wiring.sources_bind, List.getLast?_concat, wire, setStarts,
        ← List.map_reverse, emptyInnermost_fresh]
      rfl
    | append step =>
      rw [Wiring.steps_append, Wiring.sources_append, List.map_append, List.reverse_append]
      rfl

theorem wired_eq_ofSteps {calls : List Wiring} {source : List Element}
    (h : (Wiring.sources calls).getLast? = some source) :
    wired calls = ofSteps (Wiring.steps calls) source := by
  rw [wired_eq, h, ofSteps, pipes_foldl_addStep]
  exact congrArg (Pipeline.mk · _) (List.append_nil _).symm

theorem size_wired (calls : List Wiring) : (wired calls).size = (Wiring.steps calls).length := by
  rw [size, wired_eq, List.length_reverse, List.length_map]

theorem describe_wired (calls : List Wiring) :
    (wired calls).describe = " -> ".intercalate ((Wiring.steps calls).map Step.name) := by
  have hname : ∀ step : Step, step.pipe.name = step.name := fun step ↦ by cases step <;> rfl
  rw [describe, wired_eq, List.reverse_reverse, List.map_map]
  exact congrArg _ (List.map_congr_left fun step _ ↦ hname step)

theorem ready_wired (calls : List Wiring) :
    (wired calls).ready = .ok () ↔ Wiring.steps calls ≠ [] ∧ Wiring.sources calls ≠ [] := by
  rw [ready_eq_ok, wired_eq]
  refine and_congr ?_ ?_
  · rw [ne_eq, List.reverse_eq_nil_iff, List.map_eq_nil_iff]
  · rw [ne_eq, ← List.getLast?_eq_none_iff]
    cases (Wiring.sources calls).getLast? <;> simp [Origin.ofBound, Origin.isBound]

end Pipeline

/-! ## Wiring in memory -/

namespace Pipeline.Nested

/-- Makes one call that wires. -/
def wire (s : Nested) : Wiring → Nested
  | .bind source => s.setStarts source
  | .append step => s.addPipe step.pipe

/-- The parts of a new pipeline after calls that wire. -/
def wired (calls : List Wiring) : Nested := calls.foldl wire empty

theorem Holds.wire {s : Nested} {p : Pipeline} (h : s.Holds p) (call : Wiring) :
    (s.wire call).Holds (p.wire call) := by
  cases call with
  | bind source => exact h.setStarts source
  | append step => exact h.addPipe rfl

theorem holds_wired (calls : List Wiring) : (wired calls).Holds (Pipeline.wired calls) := by
  induction calls using List.reverseRecOn with
  | nil => exact holds_empty
  | append_singleton calls call ih =>
    rw [wired_concat, wired, List.foldl_append]
    exact ih.wire call

end Pipeline.Nested

/-! ## What a request takes from the source -/

theorem Pulls.remaining_le {g : Graph} {pipes : List Pipe} {origin : Origin} {r : Pulled}
    (h : Pulls g pipes origin r) : r.origin.remaining ≤ origin.remaining := by
  induction h with
  | origin origin =>
    rcases origin with _ | ⟨whole, _ | ⟨x, rest⟩⟩
    · exact Nat.le_refl _
    · exact Nat.le_refl _
    · exact Nat.le_succ _
  | buffered | exhausted | finish | give => exact Nat.le_refl _
  | ended _ _ ih | failed _ _ ih | answered _ _ _ ih => exact ih
  | again _ _ _ _ ih ihagain => exact Nat.le_trans ihagain ih

/-- A chain that holds nothing has to take something from its source before it can answer with an
element or an error. -/
theorem Pulls.remaining_lt {g : Graph} {pipes : List Pipe} {origin : Origin} {r : Pulled}
    (h : Pulls g pipes origin r) (hfresh : ∀ pipe ∈ pipes, pipe.held = 0)
    (hbound : origin.isBound = true) (hresult : r.result ≠ none) :
    r.origin.remaining < origin.remaining := by
  induction h with
  | origin origin =>
    rcases origin with _ | ⟨whole, _ | ⟨x, rest⟩⟩
    · exact absurd hbound Bool.false_ne_true
    · exact absurd rfl hresult
    · exact Nat.lt_succ_self _
  | buffered stage x rest origin =>
    exact absurd (hfresh _ List.mem_cons_self) (Nat.succ_ne_zero _)
  | exhausted | finish | ended => exact absurd rfl hresult
  | give rest origin hpoll =>
    have hpending := hfresh _ List.mem_cons_self
    have hgiven := (Stage.poll_give hpoll).1
    simp only [Pipe.held] at hpending
    omega
  | failed _ _ ih | answered _ _ _ ih =>
    exact ih (fun pipe hpipe ↦ hfresh pipe (List.mem_cons_of_mem _ hpipe)) hbound
      (Option.some_ne_none _)
  | again _ _ _ hagain ih _ =>
    have hfeed := ih (fun pipe hpipe ↦ hfresh pipe (List.mem_cons_of_mem _ hpipe)) hbound
      (Option.some_ne_none _)
    exact Nat.lt_of_le_of_lt hagain.remaining_le hfeed

namespace Pipeline

variable {g : Graph} {p : Pipeline}

/-! ## After the first request -/

/-- What holds after the first request or the first question and is kept by both holds after a
demand. -/
theorem serve_keeps_first {P : Pipeline → Prop} (hpull : ∀ p, P p → P (p.pullEnd g).pipeline)
    (hpeek : ∀ p, P p → P (p.peekEnd g).pipeline) (h : p.ready = .ok ())
    (hfirst : P (p.pullEnd g).pipeline) (hasked : P (p.peekEnd g).pipeline) {demand : Demand}
    (hdemand : demand ≠ .take 0) : P (p.serve g demand).2 := by
  have hcount : P (p.count g).pipeline := by
    rw [count, guarded_of_ready h, drainCount_eq]
    split
    · exact hfirst
    · exact hfirst
    · exact drainCount_keeps hpull _ hfirst
  cases demand with
  | hasNext => rwa [serve, hasNext_of_ready h]
  | next => rwa [serve, next_of_ready h]
  | take n =>
    cases n with
    | zero => exact absurd rfl hdemand
    | succ n =>
      rw [serve, take, next_of_ready h]
      split
      · exact hfirst
      · exact hfirst
      · exact take_keeps hpull n hfirst
  | toList =>
    rw [serve, toList_of_ready h, drain_eq]
    split
    · exact hasked
    · exact hasked
    · have htaken := hpull _ hasked
      dsimp only
      split
      · exact htaken
      · exact htaken
      · exact drain_keeps hpull hpeek _ htaken
  | count => exact hcount
  | iterate => exact hcount

theorem origin_peekEnd (hempty : p.lookAhead = .empty) :
    (p.peekEnd g).pipeline.origin = (p.pullEnd g).pipeline.origin := by
  rw [peekEnd, hempty]
  rcases hanswer : (p.pullEnd g).answer with e | _ | x <;> simp only [hanswer]

theorem remaining_peekEnd_le (p : Pipeline) :
    (p.peekEnd g).pipeline.origin.remaining ≤ p.origin.remaining := by
  have hpull : (p.pullEnd g).pipeline.origin.remaining ≤ p.origin.remaining :=
    (pulls_pull g p.pipes p.origin).remaining_le
  exact peekEnd_keeps (P := fun q ↦ q.origin.remaining ≤ p.origin.remaining) (Nat.le_refl _) hpull
    fun _ _ _ ↦ hpull

/-- A pipeline that holds nothing meets an error behind its source only. -/
theorem remaining_serve_lt (h : p.ready = .ok ()) (hempty : p.lookAhead = .empty)
    (hfresh : ∀ pipe ∈ p.pipes, pipe.held = 0) {demand : Demand} {e : GraphError}
    (herror : (p.serve g demand).1.results = [.error e]) :
    (p.serve g demand).2.origin.remaining < p.origin.remaining := by
  have hitems : p.items g ≠ [] := by
    rintro hnil
    have hmem : Except.error e ∈ (demand.answer (p.items g)).results := by
      rw [← (serve_spec h demand).1, herror]
      exact List.mem_singleton_self _
    exact absurd (hnil ▸ Demand.mem_of_mem_results hmem) List.not_mem_nil
  have hanswer : (p.pullEnd g).answer ≠ .ok none := by
    rw [answer_pullEnd_of_ready h]
    exact mt answerOf_eq_none.mp hitems
  have hresult : (pull g p.pipes p.origin).val.result ≠ none := by
    rintro hnone
    exact hanswer (by rw [answer_pullEnd, hnone, answerOf])
  have hpulls := pulls_pull g p.pipes p.origin
  have hfirst : (p.pullEnd g).pipeline.origin.remaining < p.origin.remaining :=
    hpulls.remaining_lt hfresh (ready_eq_ok.mp h).2 hresult
  have hasked : (p.peekEnd g).pipeline.origin.remaining < p.origin.remaining := by
    rwa [origin_peekEnd hempty]
  have hdemand : demand ≠ .take 0 := by
    rintro rfl
    exact absurd herror (List.cons_ne_nil _ _).symm
  refine serve_keeps_first (P := fun q ↦ q.origin.remaining < p.origin.remaining) (fun q hq ↦ ?_)
    (fun q hq ↦ ?_) h hfirst hasked hdemand
  · exact Nat.lt_of_le_of_lt (pulls_pull g q.pipes q.origin).remaining_le hq
  · exact Nat.lt_of_le_of_lt (remaining_peekEnd_le q) hq

/-! ## Refusals -/

/-- A demand is refused: it fails with an invalid state, observers see nothing, and nothing is taken
from the source. -/
structure Refuses (g : Graph) (p : Pipeline) (demand : Demand) : Prop where
  /-- The demand fails. -/
  fails : ∃ fault, (p.serve g demand).1.results = [.error (.invalidState fault)]
  /-- Observers see nothing. -/
  unseen : p.seenIn g demand = []
  /-- Nothing is taken from the source. -/
  untouched : (p.serve g demand).2.origin = p.origin

theorem guarded_of_not_ready {α : Type} {e : GraphError} (h : p.ready = .error e)
    (operation : Pipeline → Run α) : p.guarded operation = ⟨.error e, p, []⟩ := by
  rw [guarded, h]

theorem serve_of_not_ready {e : GraphError} (h : p.ready = .error e) {demand : Demand}
    (hdemand : demand ≠ .take 0) :
    (p.serve g demand).1.results = [.error e] ∧ p.seenIn g demand = [] ∧
      (p.serve g demand).2 = p := by
  cases demand with
  | hasNext =>
    rw [serve, seenIn, hasNext, guarded_of_not_ready h]
    exact ⟨rfl, rfl, rfl⟩
  | next =>
    rw [serve, seenIn, next, guarded_of_not_ready h]
    exact ⟨rfl, rfl, rfl⟩
  | take n =>
    cases n with
    | zero => exact absurd rfl hdemand
    | succ n =>
      rw [serve, seenIn, take, next, guarded_of_not_ready h]
      exact ⟨rfl, rfl, rfl⟩
  | toList =>
    rw [serve, seenIn, toList, guarded_of_not_ready h]
    exact ⟨rfl, rfl, rfl⟩
  | count =>
    rw [serve, seenIn, count, guarded_of_not_ready h]
    exact ⟨rfl, rfl, rfl⟩
  | iterate =>
    rw [serve, seenIn, iterate, count, guarded_of_not_ready h]
    exact ⟨rfl, rfl, rfl⟩

theorem ready_wired_error {calls : List Wiring}
    (h : Wiring.steps calls = [] ∨ Wiring.sources calls = []) :
    (wired calls).ready
      = .error (.invalidState (if Wiring.steps calls = [] then .noPipes else .noStarts)) := by
  rw [ready, wired_eq]
  by_cases hsteps : Wiring.steps calls = []
  · rw [if_pos hsteps, hsteps]
    rfl
  · have hpipes : ((Wiring.steps calls).map Step.pipe).reverse.isEmpty = false := by
      rwa [List.isEmpty_reverse, List.isEmpty_map, List.isEmpty_eq_false_iff]
    rw [if_neg hsteps, h.resolve_left hsteps]
    simp only [hpipes]
    rfl

theorem refuses_wired_iff (g : Graph) (calls : List Wiring) {demand : Demand}
    (hdemand : demand ≠ .take 0) :
    (wired calls).Refuses g demand ↔ Wiring.steps calls = [] ∨ Wiring.sources calls = [] := by
  constructor
  · rintro ⟨⟨fault, hfails⟩, -, huntouched⟩
    by_contra hwired
    have hready : (wired calls).ready = .ok () := (ready_wired calls).mpr (not_or.mp hwired)
    have hfresh : ∀ pipe ∈ (wired calls).pipes, pipe.held = 0 ∧ pipe.ahead = .empty := by
      rw [wired_eq]
      rintro pipe hpipe
      obtain ⟨step, -, rfl⟩ := List.mem_map.mp (List.mem_reverse.mp hpipe)
      exact ⟨by cases step <;> rfl, rfl⟩
    have hempty : (wired calls).lookAhead = .empty := by
      rw [lookAhead]
      split
      · rfl
      · rename_i pipe rest hpipes
        exact (hfresh pipe (hpipes ▸ List.mem_cons_self)).2
    have htaken := remaining_serve_lt hready hempty (fun pipe hpipe ↦ (hfresh pipe hpipe).1) hfails
    exact absurd (congrArg Origin.remaining huntouched) (Nat.ne_of_lt htaken)
  · rintro hlacking
    obtain ⟨hfails, hunseen, hkept⟩ := serve_of_not_ready (ready_wired_error hlacking) hdemand
    exact ⟨⟨_, hfails⟩, hunseen, congrArg Pipeline.origin hkept⟩

/-- **Wiring in any order.** Whatever sources are bound and pipes appended before the first demand,
and in whichever order, the pipeline has one pipe for each step that was appended, in their order.
Without a pipe or without a source it answers every demand with what it lacks and stays as it is,
also where the last step would let nothing pass; only then is a demand refused. Otherwise it is the
pipeline that was given the last source first and then the pipes, and it responds as that pipeline
does to whatever is done later. The parts in memory are those of the pipeline after the same calls:
the counter comes to the number of pipes, going through the boxes tells the names in their order,
and a pipe and a source are found in them exactly if there are any. -/
theorem wired_in_any_order (g : Graph) (calls : List Wiring) :
    let p := wired calls
    let steps := Wiring.steps calls
    let sources := Wiring.sources calls
    p.size = steps.length ∧ p.describe = " -> ".intercalate (steps.map Step.name) ∧
    (∀ demand, demand ≠ .take 0 → (p.Refuses g demand ↔ steps = [] ∨ sources = [])) ∧
    (steps = [] ∨ sources = [] → ∀ demand, demand ≠ .take 0 →
      (p.serve g demand).1.results
          = [.error (.invalidState (if steps = [] then .noPipes else .noStarts))] ∧
        p.seenIn g demand = [] ∧ (p.serve g demand).2 = p) ∧
    (∀ source, sources.getLast? = some source →
      p = steps.foldl addStep (empty.setStarts source) ∧
      ∀ later, p.responses g later
        = (steps.foldl addStep (empty.setStarts source)).responses g later) ∧
    (Nested.wired calls).Holds p ∧ (Nested.wired calls).len = steps.length ∧
    (Nested.wired calls).describe = " -> ".intercalate (steps.map Step.name) ∧
    (Nested.wired calls).ready = p.ready ∧
    ((Nested.wired calls).ready = .ok () ↔ steps ≠ [] ∧ sources ≠ []) := by
  intro p steps sources
  have hnested := Nested.holds_wired calls
  refine ⟨size_wired calls, describe_wired calls, fun demand ↦ refuses_wired_iff g calls,
    fun hlacking demand ↦ serve_of_not_ready (ready_wired_error hlacking), fun source hlast ↦ ?_,
    hnested, hnested.len.trans (size_wired calls), hnested.describe_eq.trans (describe_wired calls),
    hnested.ready_eq, hnested.ready_eq ▸ ready_wired calls⟩
  have hwired : p = steps.foldl addStep (empty.setStarts source) := wired_eq_ofSteps hlast
  exact ⟨hwired, fun later ↦ by rw [hwired]⟩

/-- A limit of zero does not make up for a missing source, and a source that is bound between two
pipes and bound again behind them reaches the first one. -/
theorem wired_in_any_order_shuffled :
    let a := Element.id (.name "a")
    let b := Element.id (.name "b")
    let calls : List Wiring := [.append .id, .bind [a], .append (.limit 1), .bind [b, a]]
    let unbound : List Wiring := [.append .identity, .append (.limit 0)]
    (wired unbound).Refuses .tangled .toList ∧
      ((wired unbound).serve .tangled .count).1.results = [.error (.invalidState .noStarts)] ∧
      (Wiring.sources calls).getLast? = some [b, a] ∧
      wired calls = ofSteps [.id, .limit 1] [b, a] ∧
      (wired calls).describe = "id -> limit" ∧ ¬(wired calls).Refuses .tangled .hasNext ∧
      (Nested.wired calls).describe = "id -> limit" ∧ (Nested.wired calls).len = 2 := by
  intro a b calls unbound
  obtain ⟨-, -, hrefuses, hanswers, -⟩ := wired_in_any_order .tangled unbound
  obtain ⟨-, hdescribe, hserves, -, hwired, -, hlen, hnames, -⟩ :=
    wired_in_any_order .tangled calls
  have hlacking : Wiring.steps unbound = [] ∨ Wiring.sources unbound = [] := .inr rfl
  have hlast : (Wiring.sources calls).getLast? = some [b, a] := rfl
  refine ⟨(hrefuses .toList Demand.noConfusion).mpr hlacking,
    (hanswers hlacking .count Demand.noConfusion).1, hlast, (hwired [b, a] hlast).1,
    hdescribe.trans (by decide +kernel), ?_, hnames.trans (by decide +kernel), hlen⟩
  rw [hserves .hasNext Demand.noConfusion]
  rintro (hsteps | hsources)
  · exact List.cons_ne_nil _ _ hsteps
  · exact List.cons_ne_nil _ _ hsources

end Pipeline

end BookmarkGraph
