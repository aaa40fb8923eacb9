import BookmarkGraph.Proofs.Pipe.Reset

/-!
# Appending to a running pipeline

A pipe can be appended at any time. What was the last pipe until then becomes the feed of the new
one, together with the element that it may have computed ahead and with everything that its step
remembers.

Demands take from the front of the list of items that a pipeline still delivers, so after any
history this list is split in two: what the demands took, and what is left. The new pipe is fed what
is left and nothing else. It does not matter in which state the demands left the old end: an element
that it computed ahead is the first of the remaining items, and after its end nothing remains.
-/

namespace BookmarkGraph

namespace Demand

/-- What a sequence of demands takes from the front of a list of results. -/
def takesAll (items : List Item) : List Demand → List Item
  | [] => []
  | demand :: demands =>
    demand.takes items ++ takesAll (items.drop (demand.takes items).length) demands

end Demand

theorem Origin.isBound_eq (origin : Origin) : origin.isBound = origin.whole.isSome := by
  cases origin <;> rfl

theorem Step.items_nil (g : Graph) (step : Step) : step.items g [] = [] := by
  cases step with
  | limit bound => cases bound <;> rfl
  | element step | hop h | distinct => rfl

namespace Pipeline

variable {g : Graph} {p : Pipeline}

/-! ## After a history of demands -/

theorem after_keeps {P : Pipeline → Prop}
    (hserve : ∀ (p : Pipeline) (demand : Demand), P p → P (p.serve g demand).2)
    (history : List Demand) (hp : P p) : P (p.after g (history.map .demand)) := by
  induction history generalizing p with
  | nil => exact hp
  | cons demand history ih => exact ih (hserve p demand hp)

theorem layout_after_demands (p : Pipeline) (history : List Demand) :
    (p.after g (history.map .demand)).layout = p.layout := by
  refine after_keeps (P := fun q ↦ q.layout = p.layout) ?_ history rfl
  exact fun q demand hq ↦ (layout_serve q demand).trans hq

theorem serve_of_no_pipes (h : p.pipes = []) (demand : Demand) : (p.serve g demand).2 = p := by
  have hguarded : ∀ {α : Type} (operation : Pipeline → Run α),
      p.guarded operation = ⟨.error (.invalidState .noPipes), p, []⟩ := by
    intro α operation
    rw [guarded, ready, h]
    rfl
  cases demand with
  | hasNext => exact congrArg Run.pipeline (hguarded (peekEnd g))
  | next => exact congrArg Run.pipeline (hguarded (pullEnd g))
  | toList => exact congrArg Run.pipeline (hguarded (drain g))
  | count | iterate => exact congrArg Run.pipeline (hguarded (drainCount g))
  | take n =>
    cases n with
    | zero => rfl
    | succ n =>
      rw [serve, take, next, hguarded]

theorem after_of_no_pipes (h : p.pipes = []) (history : List Demand) :
    p.after g (history.map .demand) = p := by
  refine after_keeps (P := fun q ↦ q = p) ?_ history rfl
  rintro q demand rfl
  exact serve_of_no_pipes h demand

/-- Demands split the items into what they took and what the pipeline still delivers. -/
theorem items_after (h : p.ready = .ok ()) (history : List Demand) :
    p.items g = Demand.takesAll (p.items g) history ++ (p.after g (history.map .demand)).items g ∧
      (p.after g (history.map .demand)).ready = .ok () := by
  induction history generalizing p with
  | nil => exact ⟨rfl, h⟩
  | cons demand history ih =>
    obtain ⟨-, hitems, hready⟩ := serve_spec (g := g) h demand
    obtain ⟨hsplit, hready'⟩ := ih hready
    refine ⟨?_, hready'⟩
    rw [hitems] at hsplit
    rw [Demand.takesAll, List.append_assoc]
    refine Eq.trans ?_ (congrArg (demand.takes (p.items g) ++ ·) hsplit)
    exact (List.prefix_iff_eq_append.mp (Demand.prefix_takes _ demand)).symm

theorem isBound_after (h : p.origin.isBound = true) (history : List Demand) :
    (p.after g (history.map .demand)).origin.isBound = true := by
  have hwhole := (Prod.mk.inj (layout_after_demands (g := g) p history)).2
  rw [Origin.isBound_eq, hwhole, ← Origin.isBound_eq]
  exact h

/-! ## What the last pipe has computed ahead -/

theorem head?_items_of_buffered {x : Element} (h : p.lookAhead = .buffered x) :
    (p.items g).head? = some (.ok x) := by
  rw [(pullEnd_of_buffered h).1, List.head?_cons]

theorem items_of_exhausted (h : p.lookAhead = .exhausted) : p.items g = [] := by
  obtain ⟨_ | ⟨⟨stage, ahead⟩, rest⟩, origin⟩ := p
  · simp [lookAhead] at h
  · obtain rfl : ahead = .exhausted := h
    rfl

/-! ## The appended pipe -/

theorem ready_addStep (h : p.origin.isBound = true) (step : Step) :
    (p.addStep step).ready = .ok () :=
  ready_eq_ok.mpr ⟨List.cons_ne_nil _ _, h⟩

/-- A pipe that is appended to a bound pipeline is fed the items that were left. -/
theorem serveAll_addStep (h : p.origin.isBound = true) (step : Step) (demands : List Demand) :
    (p.addStep step).serveAll g demands = Demand.readAll (step.items g (p.items g)) demands := by
  rw [serveAll_eq_readAll (ready_addStep h step), items_addStep]

/-- **Appending to a running pipeline.** Whatever a bound pipeline has been through, and whatever
demands are made on it then, these demands take from the front of the items that it still delivers
and leave the others. A step that is appended now is fed exactly the items that are left. The first
of them is the element that the old end had computed ahead, if there is one; after the end there are
none, and the new end reports only the end. So long as nothing that is left is an error, the new end
answers as a fresh pipe does over a source of these elements. -/
theorem addStep_continues (g : Graph) {p : Pipeline} (hbound : p.origin.isBound = true)
    (history : List Demand) (step : Step) :
    let q := p.after g (history.map .demand)
    (p.pipes = [] → q = p ∧ q.items g = p.origin.items) ∧
    (p.pipes ≠ [] → p.serveAll g history = Demand.readAll (p.items g) history ∧
      p.items g = Demand.takesAll (p.items g) history ++ q.items g ∧
      ∀ n, ((q.afterNexts g n).next g).answer = answerOf (q.items g)[n]?) ∧
    (∀ x, q.lookAhead = .buffered x → (q.items g).head? = some (.ok x)) ∧
    (q.lookAhead = .exhausted → q.items g = []) ∧
    (∀ later, (q.addStep step).serveAll g later
      = Demand.readAll (step.items g (q.items g)) later) ∧
    (q.lookAhead = .exhausted → ∀ later,
      (q.addStep step).serveAll g later = later.map (Demand.answer [])) ∧
    ∀ xs, q.items g = xs.map .ok → ∀ later,
      (q.addStep step).serveAll g later = (ofSteps [step] xs).serveAll g later := by
  intro q
  have hserve := serveAll_addStep (g := g) (isBound_after (g := g) hbound history) step
  refine ⟨fun hpipes ↦ ?_, fun hpipes ↦ ?_, fun x hahead ↦ head?_items_of_buffered hahead,
    items_of_exhausted, hserve, fun hahead later ↦ ?_, fun xs hxs later ↦ ?_⟩
  · have hq : q = p := after_of_no_pipes hpipes history
    refine ⟨hq, ?_⟩
    rw [hq, items, hpipes, remaining]
  · have hready := ready_eq_ok.mpr ⟨hpipes, hbound⟩
    obtain ⟨hsplit, hready'⟩ := items_after (g := g) hready history
    exact ⟨serveAll_eq_readAll hready history, hsplit, fun n ↦ answer_next_afterNexts n hready'⟩
  · rw [hserve, items_of_exhausted hahead, Step.items_nil, Demand.readAll_nil]
  · have hfresh : (ofSteps [step] xs).items g = step.items g (xs.map .ok) := items_ofSteps ..
    have hready := ready_ofSteps (List.cons_ne_nil step []) xs
    rw [hserve, serveAll_eq_readAll hready, hfresh, hxs]

/-- The end with an element computed ahead, just after an error, and exhausted. -/
theorem addStep_continues_faulty :
    let fault := GraphError.invalidState (.idMissing .properties)
    let buffered := faulty.after .empty [.demand .hasNext]
    let failed := faulty.after .empty [.demand .next, .demand .hasNext]
    let exhausted := faulty.after .empty [.demand .toList, .demand .count]
    faulty.origin.isBound = true ∧
      buffered.lookAhead = .buffered (.id (.name "a")) ∧
      (buffered.addStep .distinct).serveAll .empty [.next, .hasNext, .take 5]
        = [.element (.ok (some (.id (.name "a")))), .found (.error fault),
          .elements (.ok [.id (.name "b")])] ∧
      (failed.addStep (.limit 1)).serveAll .empty [.hasNext, .toList]
        = [.found (.ok true), .elements (.ok [.id (.name "b")])] ∧
      exhausted.lookAhead = .exhausted ∧
      (exhausted.addStep (.limit 1)).serveAll .empty [.hasNext, .toList]
        = [.found (.ok false), .elements (.ok [])] := by
  intro fault buffered failed exhausted
  have hbound : faulty.origin.isBound = true := (ready_eq_ok.mp ready_faulty).2
  have hexhausted : exhausted.lookAhead = .exhausted := by decide +kernel
  obtain ⟨-, -, -, -, hbuffered, -⟩ := addStep_continues .empty hbound [.hasNext] .distinct
  obtain ⟨-, -, -, -, hfailed, -⟩ := addStep_continues .empty hbound [.next, .hasNext] (.limit 1)
  obtain ⟨-, -, -, -, -, hend, -⟩ := addStep_continues .empty hbound [.toList, .count] (.limit 1)
  exact ⟨hbound, by decide +kernel, (hbuffered _).trans (by decide +kernel),
    (hfailed _).trans (by decide +kernel), hexhausted, hend hexhausted _⟩

end Pipeline

end BookmarkGraph
