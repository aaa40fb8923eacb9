import BookmarkGraph.Proofs.Pipe.Append

/-!
# Binding another source to a running pipeline

Binding a source puts it in the place of the old one and makes the first pipe forget what it has
computed ahead. It is not a reset: a limit goes on counting, a distinct step still knows what it has
passed, and a hop first walks the edges that are left of the current vertex. Only a reset forgets
these.

So nothing of the old source is read any more, and the steps go on over the new source from what
they remember. This is what `resume` computes; it is what the pipeline delivers as long as no pipe
behind the first one holds something that it computed ahead. A pipe comes to hold such a thing in
two ways only: a demand asks ahead, or a request meets the end of the sequence.
-/

namespace BookmarkGraph

/-! ## Chains with nothing computed ahead -/

/-- Every pipe is about to compute its next element. -/
def NothingAhead (pipes : List Pipe) : Prop := ∀ pipe ∈ pipes, pipe.ahead = .empty

/-- What the stages of a chain, the last one first, make of the items of a source when each of them
goes on from what it remembers. -/
def resume (g : Graph) (stages : List Stage) (feed : List Item) : List Item :=
  stages.foldr (fun stage items ↦ stage.items g items) feed

namespace NothingAhead

variable {g : Graph} {pipes : List Pipe} {pipe : Pipe}

theorem nil : NothingAhead [] := List.forall_mem_nil _

theorem cons (hpipe : pipe.ahead = .empty) (h : NothingAhead pipes) :
    NothingAhead (pipe :: pipes) :=
  List.forall_mem_cons.mpr ⟨hpipe, h⟩

theorem tail (h : NothingAhead (pipe :: pipes)) : NothingAhead pipes :=
  (List.forall_mem_cons.mp h).2

theorem dropLast (h : NothingAhead pipes) : NothingAhead pipes.dropLast :=
  fun other hother ↦ h other (List.dropLast_subset pipes hother)

theorem remaining_eq (h : NothingAhead pipes) (origin : Origin) :
    remaining g pipes origin = resume g (pipes.map Pipe.stage) origin.items := by
  induction pipes with
  | nil => rfl
  | cons pipe rest ih =>
    rw [remaining, Pipe.items, h pipe List.mem_cons_self, ih h.tail]
    rfl

theorem emptyInnermost (h : NothingAhead pipes.dropLast) :
    NothingAhead (Pipeline.emptyInnermost pipes) := by
  induction pipes with
  | nil => exact h
  | cons pipe rest ih =>
    cases rest with
    | nil => exact cons rfl nil
    | cons next rest =>
      rw [List.dropLast_cons_cons] at h
      exact cons (h pipe List.mem_cons_self) (ih h.tail)

end NothingAhead

/-- A request that does not meet the end leaves nothing computed ahead. -/
theorem Pulls.nothingAhead {g : Graph} {pipes : List Pipe} {origin : Origin} {r : Pulled}
    (h : Pulls g pipes origin r) (hpipes : NothingAhead pipes) (hresult : r.result ≠ none) :
    NothingAhead r.pipes := by
  induction h with
  | origin origin =>
    rcases origin with _ | ⟨whole, _ | ⟨x, rest⟩⟩ <;> exact hpipes
  | buffered => exact .cons rfl hpipes.tail
  | give => exact .cons rfl hpipes.tail
  | exhausted | finish | ended => exact absurd rfl hresult
  | failed _ _ ih => exact .cons rfl (ih hpipes.tail (Option.some_ne_none _))
  | answered _ _ _ ih => exact .cons rfl (ih hpipes.tail (Option.some_ne_none _))
  | again _ _ _ _ ih ihagain =>
    exact ihagain (.cons rfl (ih hpipes.tail (Option.some_ne_none _))) hresult

/-! ## Where something is computed ahead -/

/-- Only the last pipe holds something that was computed ahead, unless it has met the end. -/
def AheadAtEnd : List Pipe → Prop
  | [] => True
  | pipe :: rest => pipe.ahead = .exhausted ∨ NothingAhead rest

theorem NothingAhead.aheadAtEnd {pipes : List Pipe} (h : NothingAhead pipes) :
    AheadAtEnd pipes := by
  cases pipes with
  | nil => trivial
  | cons pipe rest => exact .inr h.tail

theorem NothingAhead.buffer {pipes : List Pipe} (h : NothingAhead pipes) (x : Element) :
    AheadAtEnd (Pipeline.buffer x pipes) := by
  cases pipes with
  | nil => trivial
  | cons pipe rest => exact .inr h.tail

/-- A request computes nothing ahead; it notes the end if it meets it. -/
theorem Pulls.aheadAtEnd {g : Graph} {pipes : List Pipe} {origin : Origin} {r : Pulled}
    (h : Pulls g pipes origin r) (hpipes : AheadAtEnd pipes) : AheadAtEnd r.pipes := by
  induction h with
  | origin origin =>
    rcases origin with _ | ⟨whole, _ | ⟨x, rest⟩⟩ <;> trivial
  | exhausted | finish | ended => exact .inl rfl
  | buffered | give => exact .inr (hpipes.resolve_left LookAhead.noConfusion)
  | failed _ hfeed | answered _ hfeed =>
    have hrest := hpipes.resolve_left LookAhead.noConfusion
    exact .inr (hfeed.nothingAhead hrest (Option.some_ne_none _))
  | again _ hfeed _ _ _ ihagain =>
    have hrest := hpipes.resolve_left LookAhead.noConfusion
    exact ihagain (.inr (hfeed.nothingAhead hrest (Option.some_ne_none _)))

namespace Pipeline

variable {g : Graph} {p : Pipeline}

theorem nothingAhead_of_empty (h : AheadAtEnd p.pipes) (hend : p.lookAhead = .empty) :
    NothingAhead p.pipes := by
  obtain ⟨_ | ⟨pipe, rest⟩, origin⟩ := p
  · exact .nil
  · obtain ⟨stage, ahead⟩ := pipe
    obtain rfl : ahead = .empty := hend
    exact .cons rfl (h.resolve_left LookAhead.noConfusion)

theorem aheadAtEnd_pullEnd (p : Pipeline) (h : AheadAtEnd p.pipes) :
    AheadAtEnd (p.pullEnd g).pipeline.pipes :=
  (pulls_pull g p.pipes p.origin).aheadAtEnd h

theorem aheadAtEnd_peekEnd (p : Pipeline) (h : AheadAtEnd p.pipes) :
    AheadAtEnd (p.peekEnd g).pipeline.pipes := by
  refine peekEnd_keeps (P := fun q ↦ AheadAtEnd q.pipes) h (aheadAtEnd_pullEnd p h) ?_
  -- a request that did not meet the end has computed nothing ahead besides what it found
  intro x hempty hanswer
  have hresult : (pull g p.pipes p.origin).val.result ≠ none := by
    intro hnone
    simp [answer_pullEnd, hnone, answerOf] at hanswer
  have hpulls := pulls_pull g p.pipes p.origin
  exact (hpulls.nothingAhead (nothingAhead_of_empty h hempty) hresult).buffer x

theorem aheadAtEnd_after (h : AheadAtEnd p.pipes) (history : List Demand) :
    AheadAtEnd (p.after g (history.map .demand)).pipes :=
  after_keeps (P := fun q ↦ AheadAtEnd q.pipes)
    (fun _ demand hq ↦ serve_keeps (P := fun q ↦ AheadAtEnd q.pipes) aheadAtEnd_pullEnd
      aheadAtEnd_peekEnd demand hq) history h

/-! ## The bound source -/

theorem items_setStarts (h : NothingAhead p.pipes.dropLast) (source : List Element) :
    (p.setStarts source).items g = resume g (p.pipes.map Pipe.stage) (source.map .ok) := by
  rw [items, setStarts, h.emptyInnermost.remaining_eq, map_stage_emptyInnermost]
  rfl

theorem ready_setStarts (h : p.pipes ≠ []) (source : List Element) :
    (p.setStarts source).ready = .ok () := by
  refine ready_eq_ok.mpr ⟨fun hnil ↦ h ?_, rfl⟩
  have hstages := map_stage_emptyInnermost p.pipes
  rw [show emptyInnermost p.pipes = [] from hnil] at hstages
  exact List.map_eq_nil_iff.mp hstages.symm

/-- When no step remembers anything, this is the pipeline that is built afresh. -/
theorem setStarts_eq_ofSteps (h : NothingAhead p.pipes.dropLast)
    (hstages : ∀ pipe ∈ p.pipes, pipe.stage.reset = pipe.stage) (source : List Element) :
    p.setStarts source = ofSteps p.steps source := by
  have hfresh : ∀ pipe ∈ emptyInnermost p.pipes, pipe.reset = pipe := by
    intro pipe hpipe
    have hmem : pipe.stage ∈ p.pipes.map Pipe.stage :=
      map_stage_emptyInnermost p.pipes ▸ List.mem_map_of_mem hpipe
    obtain ⟨other, hother, hstage⟩ := List.mem_map.mp hmem
    rw [Pipe.reset, ← hstage, hstages other hother, hstage, ← h.emptyInnermost pipe hpipe]
  have hpipes : (emptyInnermost p.pipes).map Pipe.reset = emptyInnermost p.pipes :=
    (List.map_congr_left hfresh).trans (List.map_id _)
  have hreset : (p.setStarts source).reset = p.setStarts source := by
    rw [reset, setStarts, hpipes]
    rfl
  exact hreset.symm.trans (reset_eq_ofSteps (layout_setStarts p source))

theorem setStarts_reset (p : Pipeline) (source : List Element) :
    (p.setStarts source).reset = ofSteps p.steps source :=
  reset_eq_ofSteps (layout_setStarts p source)

theorem reset_setStarts (p : Pipeline) (source : List Element) :
    p.reset.setStarts source = ofSteps p.steps source := by
  have hahead : NothingAhead p.reset.pipes := by
    rintro pipe hpipe
    obtain ⟨other, -, rfl⟩ := List.mem_map.mp hpipe
    rfl
  have hstages : ∀ pipe ∈ p.reset.pipes, pipe.stage.reset = pipe.stage := by
    rintro pipe hpipe
    obtain ⟨⟨stage, ahead⟩, -, rfl⟩ := List.mem_map.mp hpipe
    exact stage.reset_reset
  rw [setStarts_eq_ofSteps hahead.dropLast hstages, (Prod.mk.inj (layout_reset p)).1]

/-- **Binding another source.** Whatever a pipeline is and whatever demands were made on it, when a
source is bound and no pipe behind the first one holds something that it has computed ahead, then
the steps go on over exactly the elements of this source, each from what it remembers; nothing more
is read of the old source. If there is nothing that they remember, the pipeline is the one that is
built afresh. A single pipe never stands in the way, and neither does a chain that is about to
compute its next element. Together with a reset, before or after, binding leads to the pipeline that
is built afresh from any state. -/
theorem setStarts_resumes (g : Graph) (p : Pipeline) (history : List Demand)
    (source : List Element) :
    let q := p.after g (history.map .demand)
    (NothingAhead q.pipes.dropLast → p.pipes ≠ [] → ∀ later,
      (q.setStarts source).serveAll g later
        = Demand.readAll (resume g (q.pipes.map Pipe.stage) (source.map .ok)) later) ∧
    (NothingAhead q.pipes.dropLast → (∀ pipe ∈ q.pipes, pipe.stage.reset = pipe.stage) →
      q.setStarts source = ofSteps p.steps source) ∧
    (p.pipes.length ≤ 1 ∨ NothingAhead p.pipes ∧ q.lookAhead = .empty →
      NothingAhead q.pipes.dropLast) ∧
    (q.setStarts source).reset = ofSteps p.steps source ∧
    q.reset.setStarts source = ofSteps p.steps source := by
  intro q
  have hsteps : q.steps = p.steps := congrArg Prod.fst (layout_after_demands (g := g) p history)
  have hlength : q.pipes.length = p.pipes.length := by
    have hcount := congrArg List.length hsteps
    rwa [steps, steps, List.length_reverse, List.length_reverse, List.length_map,
      List.length_map] at hcount
  refine ⟨fun hahead hpipes later ↦ ?_, fun hahead hstages ↦ ?_, ?_, ?_, ?_⟩
  · have hq : q.pipes ≠ [] := by
      rw [← List.length_pos_iff, hlength]
      exact List.length_pos_iff.mpr hpipes
    rw [serveAll_eq_readAll (ready_setStarts hq source), items_setStarts hahead]
  · rw [setStarts_eq_ofSteps hahead hstages, hsteps]
  · rintro (hshort | ⟨hfresh, hend⟩)
    · have hnone : q.pipes.dropLast.length = 0 := by
        rw [List.length_dropLast, hlength]
        omega
      rw [List.length_eq_zero_iff.mp hnone]
      exact .nil
    · exact (nothingAhead_of_empty (aheadAtEnd_after hfresh.aheadAtEnd history) hend).dropLast
  · rw [setStarts_reset, hsteps]
  · rw [reset_setStarts, hsteps]

theorem setStarts_resumes_tangled :
    let a := Element.id (.name "a")
    let b := Element.id (.name "b")
    let walked := (ofSteps [.out [], .distinct] [.vertex ⟨0⟩]).after .tangled [.demand .next]
    let buffered := (ofSteps [.id] [a]).after .tangled [.demand .hasNext]
    NothingAhead walked.pipes.dropLast ∧ walked.pipes ≠ [] ∧
      (walked.setStarts [.vertex ⟨1⟩, .vertex ⟨0⟩]).serveAll .tangled [.next, .next]
        = [.element (.ok (some (.vertex ⟨0⟩))), .element (.ok none)] ∧
      (walked.setStarts [.vertex ⟨1⟩, .vertex ⟨0⟩]).reset
        = ofSteps [.out [], .distinct] [.vertex ⟨1⟩, .vertex ⟨0⟩] ∧
      buffered.lookAhead = .buffered a ∧ buffered.setStarts [b] = ofSteps [.id] [b] := by
  intro a b walked buffered
  obtain ⟨hserve, -, hahead, hreset, -⟩ := setStarts_resumes .tangled
    (ofSteps [.out [], .distinct] [.vertex ⟨0⟩]) [.next] [.vertex ⟨1⟩, .vertex ⟨0⟩]
  obtain ⟨-, hfresh, hsingle, -⟩ := setStarts_resumes .tangled (ofSteps [.id] [a]) [.hasNext] [b]
  have hwalked : NothingAhead walked.pipes.dropLast := by
    have hfresh : NothingAhead (ofSteps [.out [], .distinct] [.vertex ⟨0⟩]).pipes :=
      .cons rfl (.cons rfl .nil)
    exact hahead (.inr ⟨hfresh, by decide +kernel⟩)
  have hpipes : buffered.pipes = [⟨.element .id, .buffered a⟩] := by decide +kernel
  have hstages : ∀ pipe ∈ buffered.pipes, pipe.stage.reset = pipe.stage := by
    rw [hpipes]
    exact List.forall_mem_singleton.mpr rfl
  exact ⟨hwalked, by decide +kernel,
    (hserve hwalked (List.cons_ne_nil _ _) _).trans (by decide +kernel), hreset,
    by decide +kernel, hfresh (hsingle (.inl (Nat.le_refl 1))) hstages⟩

/-- Steps that have counted, seen or half walked something do not answer over another source as
fresh ones do, and neither does a chain whose last pipe holds an element of the old source. -/
theorem setStarts_keeps_memory :
    let a := Element.id (.name "a")
    let b := Element.id (.name "b")
    let counted := (ofSteps [.limit 1] [a]).after .tangled [.demand .next]
    let seen := (ofSteps [.distinct] [a]).after .tangled [.demand .next]
    let walked := (ofSteps [.out []] [.vertex ⟨0⟩]).after .tangled [.demand .next]
    let buffered := (ofSteps [.identity, .identity] [a]).after .tangled [.demand .hasNext]
    (counted.setStarts [b]).serveAll .tangled [.next] = [.element (.ok none)] ∧
      (ofSteps [.limit 1] [b]).serveAll .tangled [.next] = [.element (.ok (some b))] ∧
      (seen.setStarts [a]).serveAll .tangled [.next] = [.element (.ok none)] ∧
      (ofSteps [.distinct] [a]).serveAll .tangled [.next] = [.element (.ok (some a))] ∧
      (walked.setStarts []).serveAll .tangled [.next] = [.element (.ok (some (.vertex ⟨0⟩)))] ∧
      (ofSteps [.out []] []).serveAll .tangled [.next] = [.element (.ok none)] ∧
      (buffered.setStarts [b]).serveAll .tangled [.next] = [.element (.ok (some a))] ∧
      (ofSteps [.identity, .identity] [b]).serveAll .tangled [.next]
        = [.element (.ok (some b))] := by
  intro a b counted seen walked buffered
  refine ⟨?_, ?_, ?_, ?_, ?_, ?_, ?_, ?_⟩
  all_goals decide +kernel

end Pipeline

end BookmarkGraph
