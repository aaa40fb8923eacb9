import BookmarkGraph.Proofs.Pipe.LookAhead
import BookmarkGraph.Proofs.Pipe.Nesting

/-!
# Starting over

A run leaves its traces everywhere in a chain: a hop keeps the edges it has not walked, a limit its
count, a distinct step the elements it has passed, every pipe what it computed ahead, and the source
its position. A reset forgets all of this, and what is left is the layout of the chain: its steps in
their order and the whole list that the source hands out.

Demands never touch the layout, however far they come and whether they fail; only wiring does. So
the layout after any history can be read off the calls that wire, and a reset leads to the pipeline
that is built afresh from it.
-/

namespace BookmarkGraph

/-- The whole list that an origin hands out, however much of it is left. -/
def Origin.whole : Origin → Option (List Element)
  | unbound => none
  | source s => some s.items

def Pipe.step (pipe : Pipe) : Step := pipe.stage.step

/-! ## A request keeps the layout -/

namespace Stage

variable {g : Graph} {stage stage' : Stage} {x : Element} {item : Item}

theorem step_of_poll_give (h : stage.poll g = .give item stage') : stage'.step = stage.step := by
  cases stage with
  | hop hop pending =>
    cases pending with
    | nil => simp [poll] at h
    | cons walk pending =>
      obtain ⟨-, rfl⟩ := Reply.give.inj h
      rfl
  | limit bound passed =>
    rw [poll] at h
    split at h <;> simp at h
  | element _ | distinct _ => simp [poll] at h

theorem step_of_receive_give (h : stage.receive g x = .give item stage') :
    stage'.step = stage.step := by
  cases stage with
  | element step =>
    rw [receive] at h
    split at h <;> simp at h <;> rw [← h.2]
  | hop hop pending =>
    rw [receive] at h
    split at h <;> simp at h
    rw [← h.2]
  | limit bound passed =>
    obtain ⟨-, rfl⟩ := Reply.give.inj h
    rfl
  | distinct seen =>
    rw [receive] at h
    split at h <;> simp at h
    rw [← h.2]
    rfl

theorem step_of_receive_ask (h : stage.receive g x = .ask stage') : stage'.step = stage.step := by
  cases stage with
  | element step =>
    rw [receive] at h
    split at h <;> simp at h
    rw [← h]
  | hop hop pending =>
    rw [receive] at h
    split at h <;> simp at h
    rw [← h]
    rfl
  | limit bound passed => simp [receive] at h
  | distinct seen =>
    rw [receive] at h
    split at h <;> simp at h
    rw [← h]

/-- What every kind of stage forgets on a reset is all that it has remembered. -/
theorem reset_eq_start (stage : Stage) : stage.reset = stage.step.start := by
  cases stage with
  | element step => rfl
  | hop hop pending => rfl
  | limit bound passed => rfl
  | distinct seen => rfl

theorem step_reset (stage : Stage) : stage.reset.step = stage.step := by
  rw [reset_eq_start]
  cases stage <;> rfl

theorem reset_reset (stage : Stage) : stage.reset.reset = stage.reset := by
  rw [reset_eq_start, step_reset, ← reset_eq_start]

end Stage

theorem Pulls.layout {g : Graph} {pipes : List Pipe} {origin : Origin} {r : Pulled}
    (h : Pulls g pipes origin r) :
    r.pipes.map Pipe.step = pipes.map Pipe.step ∧ r.origin.whole = origin.whole := by
  induction h with
  | origin origin =>
    cases origin with
    | unbound => exact ⟨rfl, rfl⟩
    | source s =>
      obtain ⟨whole, rest⟩ := s
      cases rest <;> exact ⟨rfl, rfl⟩
  | buffered | exhausted | finish => exact ⟨rfl, rfl⟩
  | give rest origin hpoll =>
    exact ⟨congrArg (· :: _) (Stage.step_of_poll_give hpoll), rfl⟩
  | ended _ _ ih | failed _ _ ih => exact ⟨congrArg (_ :: ·) ih.1, ih.2⟩
  | answered _ _ hreceive ih =>
    have hstep := Stage.step_of_receive_give hreceive
    refine ⟨?_, ih.2⟩
    rw [List.map_cons, List.map_cons, ih.1]
    exact congrArg (· :: _) hstep
  | again _ _ hreceive _ ih ihagain =>
    -- the second request runs the stage that the first one left
    have hstep := Stage.step_of_receive_ask hreceive
    refine ⟨?_, ihagain.2.trans ih.2⟩
    rw [ihagain.1, List.map_cons, List.map_cons, ih.1]
    exact congrArg (· :: _) hstep

namespace Pipeline

/-! ## What demands keep

Every demand is made of requests to the last pipe and of asking it, so what these two keep is kept
by all demands.
-/

section Keeping

variable {g : Graph} {P : Pipeline → Prop}

theorem guarded_keeps {α : Type} {operation : Pipeline → Run α} (P : Pipeline → Prop)
    (h : ∀ p, P p → P (operation p).pipeline) {p : Pipeline} (hp : P p) :
    P (p.guarded operation).pipeline := by
  rw [guarded]
  split
  · exact hp
  · exact h p hp

/-- Asking is a request, unless something is computed ahead already, and then an element may be put
back into the last pipe. -/
theorem peekEnd_keeps {p : Pipeline} (hp : P p) (hpull : P (p.pullEnd g).pipeline)
    (hback : ∀ x, p.lookAhead = .empty → (p.pullEnd g).answer = .ok (some x) →
      P ((p.pullEnd g).pipeline.putBack x)) :
    P (p.peekEnd g).pipeline := by
  rw [peekEnd]
  split
  · exact hp
  · exact hp
  · rename_i hempty
    cases hanswer : (p.pullEnd g).answer with
    | error e => simpa only [hanswer] using hpull
    | ok found =>
      cases found with
      | none => simpa only [hanswer] using hpull
      | some x =>
        simp only [hanswer]
        exact hback x hempty hanswer

variable (hpull : ∀ p, P p → P (p.pullEnd g).pipeline)
  (hpeek : ∀ p, P p → P (p.peekEnd g).pipeline)

include hpull in
theorem take_keeps (n : Nat) {p : Pipeline} (hp : P p) : P (p.take g n).pipeline := by
  induction n generalizing p with
  | zero => exact hp
  | succ n ih =>
    have hnext : P (p.next g).pipeline := guarded_keeps P hpull hp
    rw [take]
    split
    · exact hnext
    · exact hnext
    · exact ih hnext

include hpull in
theorem drainCount_keeps (p : Pipeline) (hp : P p) : P (p.drainCount g).pipeline := by
  induction p using drainCount.induct g with
  | case1 p _ e htaken | case2 p _ htaken =>
    rw [drainCount_eq]
    simpa only [show (p.pullEnd g).answer = _ from htaken] using hpull p hp
  | case3 p _ x htaken ih =>
    rw [drainCount_eq]
    simpa only [show (p.pullEnd g).answer = _ from htaken] using ih (hpull p hp)

include hpull hpeek in
theorem drain_keeps (p : Pipeline) (hp : P p) : P (p.drain g).pipeline := by
  induction p using drain.induct g with
  | case1 p _ e hasked | case2 p _ hasked =>
    rw [drain_eq]
    simpa only [show (p.peekEnd g).answer = _ from hasked] using hpeek p hp
  | case3 p _ hasked _ e htaken | case4 p _ hasked _ htaken =>
    rw [drain_eq]
    simpa only [show (p.peekEnd g).answer = _ from hasked,
      show ((p.peekEnd g).pipeline.pullEnd g).answer = _ from htaken] using hpull _ (hpeek p hp)
  | case5 p _ hasked _ x htaken ih =>
    rw [drain_eq]
    simpa only [show (p.peekEnd g).answer = _ from hasked,
      show ((p.peekEnd g).pipeline.pullEnd g).answer = _ from htaken]
      using ih (hpull _ (hpeek p hp))

include hpull hpeek in
theorem serve_keeps (demand : Demand) {p : Pipeline} (hp : P p) : P (p.serve g demand).2 := by
  cases demand with
  | hasNext => exact guarded_keeps P hpeek hp
  | next => exact guarded_keeps P hpull hp
  | take n => exact take_keeps hpull n hp
  | toList => exact guarded_keeps P (drain_keeps hpull hpeek) hp
  | count | iterate => exact guarded_keeps P (drainCount_keeps hpull) hp

end Keeping

/-! ## Demands keep the layout -/

def steps (p : Pipeline) : List Step := (p.pipes.map Pipe.step).reverse

/-- What wiring determines: the steps, and the list that the source hands out. -/
def layout (p : Pipeline) : List Step × Option (List Element) := (p.steps, p.origin.whole)

theorem map_step_buffer (x : Element) (pipes : List Pipe) :
    (buffer x pipes).map Pipe.step = pipes.map Pipe.step := by
  cases pipes <;> rfl

theorem map_stage_emptyInnermost (pipes : List Pipe) :
    (emptyInnermost pipes).map Pipe.stage = pipes.map Pipe.stage := by
  induction pipes with
  | nil => rfl
  | cons pipe rest ih =>
    cases rest with
    | nil => rfl
    | cons next rest => exact congrArg (pipe.stage :: ·) ih

theorem map_step_emptyInnermost (pipes : List Pipe) :
    (emptyInnermost pipes).map Pipe.step = pipes.map Pipe.step := by
  have hstages := congrArg (List.map Stage.step) (map_stage_emptyInnermost pipes)
  rwa [List.map_map, List.map_map] at hstages

variable {g : Graph}

theorem layout_pullEnd (p : Pipeline) : (p.pullEnd g).pipeline.layout = p.layout := by
  obtain ⟨hsteps, hwhole⟩ := (pulls_pull g p.pipes p.origin).layout
  rw [layout, layout, steps, steps, pullEnd, hsteps, hwhole]

theorem layout_putBack (p : Pipeline) (x : Element) : (p.putBack x).layout = p.layout := by
  rw [layout, layout, steps, steps, putBack, map_step_buffer]

theorem layout_serve (p : Pipeline) (demand : Demand) :
    (p.serve g demand).2.layout = p.layout := by
  have hpull : ∀ q : Pipeline, q.layout = p.layout → (q.pullEnd g).pipeline.layout = p.layout :=
    fun q hq ↦ (layout_pullEnd q).trans hq
  have hpeek : ∀ q : Pipeline, q.layout = p.layout → (q.peekEnd g).pipeline.layout = p.layout :=
    fun q hq ↦ peekEnd_keeps (P := fun q ↦ q.layout = p.layout) hq (hpull q hq)
      fun x _ _ ↦ (layout_putBack _ x).trans (hpull q hq)
  exact serve_keeps hpull hpeek demand rfl

/-! ## Histories -/

/-- What observers see while a demand is served. -/
def seenIn (g : Graph) (p : Pipeline) : Demand → List Element
  | .hasNext => (p.hasNext g).seen
  | .next => (p.next g).seen
  | .take n => (p.take g n).seen
  | .toList => (p.toList g).seen
  | .count => (p.count g).seen
  | .iterate => (p.iterate g).seen

end Pipeline

/-- What can be done to a pipeline. -/
inductive Operation where
  /-- A demand is made. -/
  | demand (demand : Demand)
  /-- A source is bound. -/
  | setStarts (items : List Element)
  /-- A pipe is appended, whose step may have run before. -/
  | addPipe (stage : Stage)
  /-- The run starts over. -/
  | reset
deriving DecidableEq, Repr

/-- What comes back from an operation: an answer if it was a demand, and what observers saw. -/
structure Response where
  /-- The answer to a demand. -/
  answer : Option Answer
  /-- What observers saw, in the order of passing. -/
  seen : List Element
deriving DecidableEq

namespace Pipeline

def perform (g : Graph) (p : Pipeline) : Operation → Response × Pipeline
  | .demand demand => (⟨some (p.serve g demand).1, p.seenIn g demand⟩, (p.serve g demand).2)
  | .setStarts items => (⟨none, []⟩, p.setStarts items)
  | .addPipe stage => (⟨none, []⟩, p.addPipe ⟨stage, .empty⟩)
  | .reset => (⟨none, []⟩, p.reset)

def responses (g : Graph) (p : Pipeline) : List Operation → List Response
  | [] => []
  | operation :: rest => (p.perform g operation).1 :: (p.perform g operation).2.responses g rest

def after (g : Graph) (p : Pipeline) (history : List Operation) : Pipeline :=
  history.foldl (fun p operation ↦ (p.perform g operation).2) p

end Pipeline

/-- The steps that a history appends. -/
def addedSteps (history : List Operation) : List Step :=
  history.filterMap fun
    | .addPipe stage => some stage.step
    | _ => none

/-- The list that was bound last, which is the given one if the history binds none. -/
def lastBound (bound : Option (List Element)) : List Operation → Option (List Element)
  | [] => bound
  | .setStarts items :: rest => lastBound (some items) rest
  | _ :: rest => lastBound bound rest

namespace Pipeline

variable {g : Graph}

theorem layout_setStarts (p : Pipeline) (items : List Element) :
    (p.setStarts items).layout = (p.steps, some items) := by
  rw [layout, steps, setStarts, map_step_emptyInnermost, ← steps]
  rfl

theorem layout_addPipe (p : Pipeline) (pipe : Pipe) :
    (p.addPipe pipe).layout = (p.steps ++ [pipe.step], p.origin.whole) := by
  rw [layout, steps, addPipe, List.map_cons, List.reverse_cons, ← steps]

theorem layout_reset (p : Pipeline) : p.reset.layout = p.layout := by
  have hpipes : (p.pipes.map Pipe.reset).map Pipe.step = p.pipes.map Pipe.step := by
    rw [List.map_map]
    exact List.map_congr_left fun pipe _ ↦ pipe.stage.step_reset
  have horigin : p.origin.rewind.whole = p.origin.whole := by cases p.origin <;> rfl
  rw [layout, layout, steps, steps, reset, hpipes, horigin]

/-- The layout after a history is read off the operations that wire. -/
theorem layout_after (p : Pipeline) (history : List Operation) :
    (p.after g history).layout
      = (p.steps ++ addedSteps history, lastBound p.origin.whole history) := by
  induction history generalizing p with
  | nil =>
    change p.layout = _
    rw [addedSteps, List.filterMap_nil, List.append_nil, lastBound, layout]
  | cons operation rest ih =>
    have hafter := ih (p.perform g operation).2
    rw [after, List.foldl_cons, ← after, hafter]
    cases operation with
    | demand demand =>
      have hkept := Prod.mk.inj (layout_serve (g := g) p demand)
      rw [perform, hkept.1, hkept.2]
      rfl
    | setStarts items =>
      have hbound := Prod.mk.inj (layout_setStarts p items)
      rw [perform, hbound.1, hbound.2]
      rfl
    | addPipe stage =>
      have hadded := Prod.mk.inj (layout_addPipe p ⟨stage, .empty⟩)
      rw [perform, hadded.1, hadded.2, List.append_assoc]
      rfl
    | reset =>
      have hkept := Prod.mk.inj (layout_reset p)
      rw [perform, hkept.1, hkept.2]
      rfl

/-- A reset leaves nothing but the layout. -/
theorem reset_eq_ofSteps {p : Pipeline} {steps : List Step} {source : List Element}
    (h : p.layout = (steps, some source)) : p.reset = ofSteps steps source := by
  obtain ⟨pipes, origin⟩ := p
  obtain ⟨rfl, hwhole⟩ := Prod.mk.inj h
  cases origin with
  | unbound => simp [Origin.whole] at hwhole
  | source s =>
    obtain rfl : s.items = source := Option.some.inj hwhole
    have hpipes : pipes.map Pipe.reset = (pipes.map Pipe.step).map Step.pipe := by
      rw [List.map_map]
      exact List.map_congr_left fun pipe _ ↦ congrArg (Pipe.mk · .empty) pipe.stage.reset_eq_start
    rw [reset, hpipes, ofSteps, pipes_foldl_addStep, Pipeline.steps, List.map_reverse,
      List.reverse_reverse]
    exact congrArg (Pipeline.mk · _) (List.append_nil _).symm

/-- **A reset restores a fresh pipeline.** Take a pipeline in whatever state and do anything to it,
so long as a source is bound in the end. After a reset it is the pipeline that is built afresh from
all of its steps over the source bound last, and it responds as that pipeline does to whatever is
done later. In memory the reset visits one box after the other and leaves the parts of the same
pipeline. -/
theorem reset_after (g : Graph) (p : Pipeline) {history : List Operation} {source : List Element}
    (hbound : lastBound p.origin.whole history = some source) :
    (p.after g history).reset = ofSteps (p.steps ++ addedSteps history) source ∧
      (∀ later, (p.after g history).reset.responses g later
        = (ofSteps (p.steps ++ addedSteps history) source).responses g later) ∧
      ∀ nested : Nested, nested.Holds (p.after g history) →
        nested.reset.Holds (ofSteps (p.steps ++ addedSteps history) source) := by
  have hlayout := layout_after (g := g) p history
  rw [hbound] at hlayout
  have hreset := reset_eq_ofSteps hlayout
  exact ⟨hreset, fun later ↦ by rw [hreset], fun nested hnested ↦ hreset ▸ hnested.reset⟩

theorem reset_after_tangled :
    let history : List Operation :=
      [.setStarts [.id (.number 7), .vertex ⟨0⟩], .addPipe (.hop ⟨.vertex, .outgoing, []⟩ []),
        .demand .next, .demand .next, .addPipe (.limit 2 1), .demand .hasNext,
        .setStarts [.vertex ⟨1⟩, .vertex ⟨0⟩], .demand .toList, .demand .count]
    let fresh := ofSteps [.out [], .limit 2] [.vertex ⟨1⟩, .vertex ⟨0⟩]
    let boxes : Starts := .pipe ⟨.hop ⟨.vertex, .outgoing, []⟩ [(⟨0⟩, ⟨3⟩), (⟨0⟩, ⟨2⟩)], .empty⟩
      (.source (.ofList [.vertex ⟨1⟩, .vertex ⟨0⟩]))
    let nested : Nested := ⟨some (⟨.limit 2 2, .exhausted⟩, boxes), none, 2⟩
    lastBound empty.origin.whole history = some [.vertex ⟨1⟩, .vertex ⟨0⟩] ∧
      (empty.after .tangled history).lookAhead = .exhausted ∧
      (empty.after .tangled history).reset = fresh ∧
      (empty.after .tangled history).reset.responses .tangled [.demand .next, .demand .toList]
        = [⟨some (.element (.ok (some (.vertex ⟨1⟩)))), []⟩,
          ⟨some (.elements (.ok [.vertex ⟨0⟩])), []⟩] ∧
      nested.Holds (empty.after .tangled history) ∧ nested.reset.Holds fresh := by
  intro history fresh boxes nested
  have hbound : lastBound empty.origin.whole history = some [.vertex ⟨1⟩, .vertex ⟨0⟩] := rfl
  obtain ⟨hreset, hlater, hboxes⟩ := reset_after .tangled empty hbound
  have hnested : nested.Holds (empty.after .tangled history) :=
    ⟨by decide +kernel, by decide +kernel, by decide +kernel, nofun⟩
  exact ⟨hbound, by decide +kernel, hreset, (hlater _).trans (by decide +kernel), hnested,
    hboxes nested hnested⟩

end Pipeline

end BookmarkGraph
