import BookmarkGraph.Proofs.Pipe.Denotation

/-!
# Look-ahead cannot be observed

A consumer makes demands of several kinds in any order. Some of them make the last pipe compute an
element ahead, others leave it without one, and a failure can come in between. Still every answer is
that of a reader of one list, the results of taking one element after the other: the demands take
from the front of this list, each one where the one before it stopped.

The one thing that a consumer does not get to see is what a drain has taken when it meets an error:
its answer is then the error alone.
-/

namespace BookmarkGraph

/-- A demand of a consumer. -/
inductive Demand where
  /-- Asks whether there is another element. -/
  | hasNext
  /-- Takes an element. -/
  | next
  /-- Takes at most so many elements. -/
  | take (n : Nat)
  /-- Takes every element. -/
  | toList
  /-- Takes every element and tells their number. -/
  | count
  /-- Takes every element and tells nothing about them. -/
  | iterate
deriving DecidableEq, Repr

/-- What a consumer is told. -/
inductive Answer where
  /-- Whether there is another element. -/
  | found (answer : Except GraphError Bool)
  /-- An element, or the end. -/
  | element (answer : Except GraphError (Option Element))
  /-- Some elements. -/
  | elements (answer : Except GraphError (List Element))
  /-- A number of elements. -/
  | number (answer : Except GraphError Nat)
  /-- That the end was reached. -/
  | done (answer : Except GraphError Unit)
deriving DecidableEq

/-- The results that an answer hands over: elements, and an error in the place of one. -/
def Answer.results : Answer → List Item
  | .found (.error e) | .element (.error e) | .elements (.error e) | .number (.error e)
  | .done (.error e) => [.error e]
  | .element (.ok (some x)) => [.ok x]
  | .elements (.ok xs) => xs.map .ok
  | .found (.ok _) | .element (.ok none) | .number (.ok _) | .done (.ok _) => []

namespace Pipeline

def serve (g : Graph) (p : Pipeline) : Demand → Answer × Pipeline
  | .hasNext => (.found (p.hasNext g).answer, (p.hasNext g).pipeline)
  | .next => (.element (p.next g).answer, (p.next g).pipeline)
  | .take n => (.elements (p.take g n).answer, (p.take g n).pipeline)
  | .toList => (.elements (p.toList g).answer, (p.toList g).pipeline)
  | .count => (.number (p.count g).answer, (p.count g).pipeline)
  | .iterate => (.done (p.iterate g).answer, (p.iterate g).pipeline)

def serveAll (g : Graph) (p : Pipeline) : List Demand → List Answer
  | [] => []
  | demand :: demands => (p.serve g demand).1 :: (p.serve g demand).2.serveAll g demands

end Pipeline

/-! ## Reading a list -/

namespace Demand

/-- What a demand takes from the front of a list of results. -/
def takes (items : List Item) : Demand → List Item
  | hasNext => errorInFront items
  | next => items.take 1
  | take n => throughError (items.take n)
  | toList | count | iterate => throughError items

/-- What a reader of a list answers. -/
def answer (items : List Item) : Demand → Answer
  | hasNext => .found (Pipeline.askAnswer items)
  | next => .element (Pipeline.answerOf items.head?)
  | take n => .elements (collect (items.take n))
  | toList => .elements (collect items)
  | count => .number ((collect items).map List.length)
  | iterate => .done ((collect items).map fun _ ↦ ())

/-- The answers of a reader of a list, who goes on where the demand before stopped. -/
def readAll (items : List Item) : List Demand → List Answer
  | [] => []
  | demand :: demands =>
    demand.answer items :: readAll (items.drop (demand.takes items).length) demands

theorem prefix_throughError (items : List Item) : throughError items <+: items := by
  induction items with
  | nil => exact List.prefix_refl _
  | cons item rest ih =>
    cases item with
    | error e => exact List.prefix_append [_] rest
    | ok x => exact List.cons_prefix_cons.mpr ⟨rfl, ih⟩

theorem prefix_takes (items : List Item) (demand : Demand) : demand.takes items <+: items := by
  cases demand with
  | hasNext =>
    rcases items with _ | ⟨_ | x, rest⟩
    · exact List.prefix_refl _
    · exact List.prefix_append [_] rest
    · exact List.nil_prefix
  | next => exact List.take_prefix _ _
  | take n => exact (prefix_throughError _).trans (List.take_prefix _ _)
  | toList | count | iterate => exact prefix_throughError items

theorem readAll_nil (demands : List Demand) :
    readAll [] demands = demands.map (answer []) := by
  induction demands with
  | nil => rfl
  | cons demand demands ih =>
    rw [readAll, List.drop_nil, ih, List.map_cons]

theorem mem_of_mem_results {items : List Item} {demand : Demand} {item : Item}
    (h : item ∈ (demand.answer items).results) : item ∈ items := by
  have hcollect : ∀ {items : List Item} {e : GraphError}, collect items = .error e →
      item ∈ [Except.error e] → item ∈ items := by
    intro items e hcollect hitem
    rw [List.mem_singleton.mp hitem]
    exact mem_of_collect hcollect
  have helements : ∀ items : List Item, item ∈ (Answer.elements (collect items)).results →
      item ∈ items := by
    intro items hitem
    cases hxs : collect items with
    | error e => rw [hxs] at hitem; exact hcollect hxs hitem
    | ok xs => rw [hxs] at hitem; rw [eq_map_of_collect hxs]; exact hitem
  cases demand with
  | hasNext =>
    rcases items with _ | ⟨_ | x, rest⟩
    · exact absurd h List.not_mem_nil
    · rw [List.mem_singleton.mp h]
      exact List.mem_cons_self
    · exact absurd h List.not_mem_nil
  | next =>
    rcases items with _ | ⟨_ | x, rest⟩
    · exact absurd h List.not_mem_nil
    all_goals
      rw [List.mem_singleton.mp h]
      exact List.mem_cons_self
  | take n => exact List.mem_of_mem_take (helements _ h)
  | toList => exact helements items h
  | count | iterate =>
    rw [answer] at h
    cases hxs : collect items with
    | error e => rw [hxs] at h; exact hcollect hxs h
    | ok xs => rw [hxs] at h; exact absurd h List.not_mem_nil

theorem mem_of_mem_readAll {items : List Item} {demands : List Demand} {answer : Answer}
    {item : Item} (hanswer : answer ∈ readAll items demands) (hitem : item ∈ answer.results) :
    item ∈ items := by
  induction demands generalizing items with
  | nil => exact absurd hanswer List.not_mem_nil
  | cons demand demands ih =>
    rcases List.mem_cons.mp hanswer with rfl | hanswer
    · exact mem_of_mem_results hitem
    · exact List.mem_of_mem_drop (ih hanswer)

end Demand

/-! ## Serving is reading -/

namespace Pipeline

variable {g : Graph} {p : Pipeline}

theorem hasNext_of_ready (h : p.ready = .ok ()) : p.hasNext g = p.peekEnd g := guarded_of_ready h _

theorem toList_of_ready (h : p.ready = .ok ()) : p.toList g = p.drain g := guarded_of_ready h _

/-- Counting and listing lead through the same states. -/
theorem count_eq_toList (h : p.ready = .ok ()) :
    p.count g =
      ⟨(p.toList g).answer.map List.length, (p.toList g).pipeline, (p.toList g).seen⟩ := by
  rw [count, guarded_of_ready h, drainCount_eq_drain h, toList_of_ready h]

theorem take_spec (n : Nat) (h : p.ready = .ok ()) :
    (p.take g n).answer = collect ((p.items g).take n) ∧
      (p.take g n).pipeline.items g
        = (p.items g).drop (throughError ((p.items g).take n)).length ∧
      (p.take g n).pipeline.ready = .ok () := by
  induction n generalizing p with
  | zero => exact ⟨rfl, rfl, h⟩
  | succ n ih =>
    have hanswer := answer_pullEnd_of_ready (g := g) h
    have hrest := items_pullEnd (g := g) h
    have hready := ready_pullEnd (g := g) h
    obtain ⟨hanswer', hrest', hready'⟩ := ih hready
    rw [hrest] at hanswer' hrest'
    simp only [take, next_of_ready h, hanswer]
    rcases hitems : p.items g with _ | ⟨e | x, rest⟩ <;> rw [hitems] at hrest hanswer' hrest'
    · exact ⟨rfl, hrest, hready⟩
    · exact ⟨rfl, hrest, hready⟩
    · simp only [List.head?_cons, answerOf, List.take_succ_cons, collect_ok, hanswer']
      exact ⟨rfl, hrest', hready'⟩

theorem serve_spec (h : p.ready = .ok ()) (demand : Demand) :
    (p.serve g demand).1 = demand.answer (p.items g) ∧
      (p.serve g demand).2.items g = (p.items g).drop (demand.takes (p.items g)).length ∧
      (p.serve g demand).2.ready = .ok () := by
  cases demand with
  | hasNext =>
    rw [serve, hasNext_of_ready h, (peekEnd_spec h).1]
    exact ⟨rfl, (peekEnd_spec h).2, ready_peekEnd h⟩
  | next =>
    rw [serve, next_of_ready h, answer_pullEnd_of_ready h]
    refine ⟨rfl, ?_, ready_pullEnd h⟩
    rw [items_pullEnd h, Demand.takes]
    cases p.items g <;> rfl
  | take n =>
    obtain ⟨hanswer, hitems, hready⟩ := take_spec (g := g) n h
    rw [serve, hanswer]
    exact ⟨rfl, hitems, hready⟩
  | toList =>
    obtain ⟨hanswer, hitems, hready⟩ := drain_spec (g := g) h
    rw [serve, toList_of_ready h, hanswer]
    exact ⟨rfl, hitems, hready⟩
  | count =>
    obtain ⟨hanswer, hitems, hready⟩ := drain_spec (g := g) h
    rw [serve, count_eq_toList h, toList_of_ready h, hanswer]
    exact ⟨rfl, hitems, hready⟩
  | iterate =>
    obtain ⟨-, hitems, hready⟩ := drain_spec (g := g) h
    rw [serve, answer_iterate h, iterate, count_eq_toList h, toList_of_ready h]
    exact ⟨rfl, hitems, hready⟩

theorem serveAll_eq_readAll (h : p.ready = .ok ()) (demands : List Demand) :
    p.serveAll g demands = Demand.readAll (p.items g) demands := by
  induction demands generalizing p with
  | nil => rfl
  | cons demand demands ih =>
    obtain ⟨hanswer, hitems, hready⟩ := serve_spec (g := g) h demand
    rw [serveAll, Demand.readAll, hanswer, ih hready, hitems]

theorem serveAll_of_items_eq_nil (h : p.ready = .ok ()) (hitems : p.items g = [])
    (demands : List Demand) : p.serveAll g demands = demands.map (Demand.answer []) := by
  rw [serveAll_eq_readAll h, hitems, Demand.readAll_nil]

/-- When asking finds an element, this element is the one that is kept, and taking it leads to where
taking without asking leads. -/
theorem hasNext_true (h : p.ready = .ok ()) (htrue : (p.hasNext g).answer = .ok true) :
    ∃ x, (p.hasNext g).pipeline.lookAhead = .buffered x ∧
      ((p.hasNext g).pipeline.next g).answer = .ok (some x) ∧
      (p.next g).answer = .ok (some x) ∧
      ((p.hasNext g).pipeline.next g).pipeline = (p.next g).pipeline := by
  have hready := ready_peekEnd (g := g) h
  rw [hasNext_of_ready h] at htrue ⊢
  rw [next_of_ready hready, next_of_ready h]
  rcases peekEnd_cases (g := g) (ready_eq_ok.mp h).1 with
    ⟨x, -, hpull, hahead, hafter, -⟩ | ⟨-, -, ⟨hpeek, -, -⟩ | ⟨e, hpeek, -⟩⟩
  · exact ⟨x, hahead, (pullEnd_of_buffered hahead).2.1, hpull, hafter⟩
  · simp [hpeek] at htrue
  · simp [hpeek] at htrue

theorem hasNext_false (h : p.ready = .ok ()) (hfalse : (p.hasNext g).answer = .ok false) :
    (p.hasNext g).pipeline.lookAhead = .exhausted ∧ (p.next g).answer = .ok none ∧
      (p.hasNext g).pipeline = (p.next g).pipeline := by
  rw [hasNext_of_ready h] at hfalse ⊢
  rw [next_of_ready h]
  rcases peekEnd_cases (g := g) (ready_eq_ok.mp h).1 with
    ⟨x, hpeek, -⟩ | ⟨hafter, -, ⟨-, hpull, hahead⟩ | ⟨e, hpeek, -⟩⟩
  · simp [hpeek] at hfalse
  · exact ⟨hahead, hpull, hafter⟩
  · simp [hpeek] at hfalse

theorem hasNext_error {e : GraphError} (h : p.ready = .ok ())
    (herror : (p.hasNext g).answer = .error e) :
    (p.next g).answer = .error e ∧ (p.hasNext g).pipeline = (p.next g).pipeline := by
  rw [hasNext_of_ready h] at herror ⊢
  rw [next_of_ready h]
  rcases peekEnd_cases (g := g) (ready_eq_ok.mp h).1 with
    ⟨x, hpeek, -⟩ | ⟨hafter, -, ⟨hpeek, -⟩ | ⟨e', hpeek, hpull⟩⟩
  · simp [hpeek] at herror
  · simp [hpeek] at herror
  · rw [hpeek] at herror
    rw [← Except.error.inj herror]
    exact ⟨hpull, hafter⟩

/-- Asking once more answers the same and changes nothing. -/
theorem hasNext_hasNext {b : Bool} (h : p.ready = .ok ()) (hanswer : (p.hasNext g).answer = .ok b) :
    (p.hasNext g).pipeline.hasNext g = ⟨.ok b, (p.hasNext g).pipeline, []⟩ := by
  have hready : (p.hasNext g).pipeline.ready = .ok () :=
    hasNext_of_ready (g := g) h ▸ ready_peekEnd h
  rw [hasNext_of_ready hready, peekEnd]
  cases b with
  | true =>
    obtain ⟨x, hahead, -⟩ := hasNext_true h hanswer
    rw [hahead]
  | false => rw [(hasNext_false h hanswer).1]

/-- **Look-ahead cannot be observed.** Whatever a pipeline that runs has been through, the answers
to any sequence of demands are read off the results of taking alone, every demand taking the next
of them. Asking, when it answers, tells
whether the next taking meets an element, keeps this element, and can be repeated; when it fails, it
is a taking. After the end there is only the end. Counting and listing differ in the answer alone,
and that of counting is the length of the list. -/
theorem lookAhead_unobservable (h : p.ready = .ok ()) :
    (∀ n, ((p.afterNexts g n).next g).answer = answerOf (p.items g)[n]?) ∧
    (∀ demands, p.serveAll g demands = Demand.readAll (p.items g) demands) ∧
    (∀ demand, p.items g = demand.takes (p.items g) ++ (p.serve g demand).2.items g) ∧
    (∀ b, (p.hasNext g).answer = .ok b →
      (b = true ↔ ∃ x, ((p.hasNext g).pipeline.next g).answer = .ok (some x)) ∧
      (∀ x, ((p.hasNext g).pipeline.next g).answer = .ok (some x) →
        (p.hasNext g).pipeline.lookAhead = .buffered x ∧ (p.next g).answer = .ok (some x)) ∧
      ((p.hasNext g).pipeline.next g).pipeline = (p.next g).pipeline ∧
      (p.hasNext g).pipeline.hasNext g = ⟨.ok b, (p.hasNext g).pipeline, []⟩) ∧
    (∀ e, (p.hasNext g).answer = .error e →
      (p.next g).answer = .error e ∧ (p.hasNext g).pipeline = (p.next g).pipeline) ∧
    ((p.hasNext g).answer = .ok false → ∀ demands,
      (p.hasNext g).pipeline.serveAll g demands = demands.map (Demand.answer [])) ∧
    ((p.next g).answer = .ok none → ∀ demands,
      (p.next g).pipeline.serveAll g demands = demands.map (Demand.answer [])) ∧
    p.count g =
      ⟨(p.toList g).answer.map List.length, (p.toList g).pipeline, (p.toList g).seen⟩ := by
  have hnext : (p.next g).pipeline.ready = .ok () := next_of_ready (g := g) h ▸ ready_pullEnd h
  have hend : (p.next g).answer = .ok none → ∀ demands,
      (p.next g).pipeline.serveAll g demands = demands.map (Demand.answer []) := by
    intro hnone
    refine serveAll_of_items_eq_nil hnext ?_
    rw [next_of_ready h, answer_pullEnd_of_ready h, answerOf_eq_none] at hnone
    rw [next_of_ready h, items_pullEnd h, hnone, List.tail_nil]
  refine ⟨fun n ↦ answer_next_afterNexts n h, serveAll_eq_readAll h, fun demand ↦ ?_,
    fun b hb ↦ ?_, fun e he ↦ hasNext_error h he, fun hfalse ↦ ?_, hend, count_eq_toList h⟩
  · rw [(serve_spec h demand).2.1]
    exact (List.prefix_iff_eq_append.mp (Demand.prefix_takes _ demand)).symm
  · cases b with
    | true =>
      obtain ⟨x, hahead, hbuffered, htaken, hafter⟩ := hasNext_true h hb
      refine ⟨⟨fun _ ↦ ⟨x, hbuffered⟩, fun _ ↦ rfl⟩, fun y hy ↦ ?_, hafter, hasNext_hasNext h hb⟩
      rw [hbuffered] at hy
      obtain rfl : x = y := Option.some.inj (Except.ok.inj hy)
      exact ⟨hahead, htaken⟩
    | false =>
      -- asking has found the end already, and taking meets it again
      obtain ⟨hahead, hnone, hafter⟩ := hasNext_false h hb
      have hready : (p.hasNext g).pipeline.ready = .ok () := hafter ▸ hnext
      have hlast : (p.hasNext g).pipeline.next g = ⟨.ok none, (p.hasNext g).pipeline, []⟩ := by
        rw [next_of_ready hready, pullEnd_of_exhausted hahead]
      rw [hlast]
      exact ⟨⟨by simp, by simp⟩, by simp, hafter, hasNext_hasNext h hb⟩
  · obtain ⟨-, hnone, hafter⟩ := hasNext_false h hfalse
    rw [hafter]
    exact hend hnone

/-- Two ids with a property map between them that has none. -/
def faulty : Pipeline :=
  ofSteps [.id] [.id (.name "a"), .properties .empty, .id (.name "b")]

theorem ready_faulty : faulty.ready = .ok () := ready_ofSteps (List.cons_ne_nil _ _) _

theorem serveAll_faulty (demands : List Demand) :
    faulty.serveAll .empty demands = Demand.readAll
      [.ok (.id (.name "a")), .error (.invalidState (.idMissing .properties)),
        .ok (.id (.name "b"))] demands := by
  rw [serveAll_eq_readAll ready_faulty, faulty, items_ofSteps]
  exact congrArg (Demand.readAll · demands) (by decide +kernel)

theorem lookAhead_unobservable_faulty :
    let fault := GraphError.invalidState (.idMissing .properties)
    faulty.ready = .ok () ∧
      faulty.serveAll .empty [.hasNext, .hasNext, .next, .hasNext, .take 5, .hasNext, .count]
        = [.found (.ok true), .found (.ok true), .element (.ok (some (.id (.name "a")))),
          .found (.error fault), .elements (.ok [.id (.name "b")]), .found (.ok false),
          .number (.ok 0)] := by
  obtain ⟨-, hserve, -⟩ := lookAhead_unobservable (g := .empty) ready_faulty
  refine ⟨ready_faulty, (hserve _).trans ?_⟩
  rw [faulty, items_ofSteps]
  decide +kernel

/-- A list that fails hands over its error only. The element before the error is in no answer then,
although taking alone hands it over first. -/
theorem toList_drops_elements :
    let fault := GraphError.invalidState (.idMissing .properties)
    faulty.ready = .ok () ∧
      (faulty.serveAll .empty [.next, .next, .next, .next]).flatMap Answer.results
        = [.ok (.id (.name "a")), .error fault, .ok (.id (.name "b"))] ∧
      (faulty.serveAll .empty [.toList, .next, .next]).flatMap Answer.results
        = [.error fault, .ok (.id (.name "b"))] ∧
      ∀ n, (faulty.serveAll .empty [.toList, .next, .next]).flatMap Answer.results
        ≠ (faulty.serveAll .empty (List.replicate n .next)).flatMap Answer.results := by
  have hlist : (faulty.serveAll .empty [.toList, .next, .next]).flatMap Answer.results
      = [.error (.invalidState (.idMissing .properties)), .ok (.id (.name "b"))] := by
    rw [serveAll_faulty]
    decide +kernel
  refine ⟨ready_faulty, ?_, hlist, fun n ↦ ?_⟩
  · rw [serveAll_faulty]
    decide +kernel
  · -- requests alone hand over the first element before anything else
    rw [hlist, serveAll_faulty]
    cases n with
    | zero => exact List.cons_ne_nil _ _
    | succ n =>
      rw [List.replicate_succ, Demand.readAll, List.flatMap_cons]
      exact fun h ↦ by simpa [Demand.answer, answerOf, Answer.results] using (List.cons.inj h).1

end Pipeline

end BookmarkGraph
