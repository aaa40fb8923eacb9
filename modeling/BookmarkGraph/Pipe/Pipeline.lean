import BookmarkGraph.Pipe.Pull

/-!
# Pipelines

A pipeline is a chain of pipes in which every pipe reads what the one before it produces, over an
origin. Sources and pipes may be given in any order; nothing is computed before the first request,
and a request computes no more than it needs.

Every operation returns a `Run`: its answer, the pipeline afterwards and what observers saw. The
pipeline goes on after an error.

## Contents

* `Pipeline.addStep`, `Pipeline.setStarts`, `Pipeline.replaceFeed`: wiring;
* `Pipeline.pullEnd`, `Pipeline.peekEnd`: requests to the last pipe, whatever feeds it;
* `Pipeline.next`, `Pipeline.hasNext`, `Pipeline.toList`, `Pipeline.count`, `Pipeline.iterate`,
  `Pipeline.take`: requests that first make sure that there is a pipe and a source;
* `Pipeline.reset`, `Pipeline.describe`, `Pipeline.inspect`.
-/

namespace BookmarkGraph

/-- A chain of pipes over an origin. -/
structure Pipeline where
  /-- The pipes, the last one first. -/
  pipes : List Pipe
  /-- What the first pipe reads from. -/
  origin : Origin
deriving DecidableEq, Repr

/-- What an operation on a pipeline answers, the pipeline it leaves behind, and what observers saw
while it ran. -/
structure Run (α : Type) where
  /-- The answer. -/
  answer : Except GraphError α
  /-- The pipeline afterwards. -/
  pipeline : Pipeline
  /-- What observers saw, in the order of passing. -/
  seen : List Element

namespace Pipeline

/-! ## Wiring -/

def empty : Pipeline := ⟨[], .unbound⟩

instance : Inhabited Pipeline := ⟨empty⟩

/-- Appends a pipe, which reads what the last one produces. -/
def addPipe (p : Pipeline) (pipe : Pipe) : Pipeline := { p with pipes := pipe :: p.pipes }

def addStep (p : Pipeline) (step : Step) : Pipeline := p.addPipe step.pipe

/-- Forgets what the innermost pipe has computed ahead. -/
def emptyInnermost : List Pipe → List Pipe
  | [] => []
  | [pipe] => [{ pipe with ahead := .empty }]
  | pipe :: rest => pipe :: emptyInnermost rest

/-- Binds a source to the first pipe. What that pipe has computed ahead is forgotten; all other
state of the chain stays. -/
def setStarts (p : Pipeline) (items : List Element) : Pipeline :=
  ⟨emptyInnermost p.pipes, .source (.ofList items)⟩

/-- Puts an origin in the place of everything that feeds the last pipe. -/
def replaceFeed (p : Pipeline) (origin : Origin) : Pipeline :=
  match p.pipes with
  | [] => ⟨[], origin⟩
  | pipe :: _ => ⟨[{ pipe with ahead := .empty }], origin⟩

/-- Every pipe at the beginning of a run, the source rewound. -/
def reset (p : Pipeline) : Pipeline := ⟨p.pipes.map Pipe.reset, p.origin.rewind⟩

def size (p : Pipeline) : Nat := p.pipes.length

def describe (p : Pipeline) : String := " -> ".intercalate (p.pipes.reverse.map Pipe.name)

/-! ## Requests to the last pipe -/

/-- The next result of the last pipe, `none` at the end of the sequence. -/
def pullEnd (g : Graph) (p : Pipeline) : Run (Option Element) :=
  let pulled := (pull g p.pipes p.origin).val
  let answer :=
    match pulled.result with
    | none => .ok none
    | some (.ok x) => .ok (some x)
    | some (.error e) => .error e
  ⟨answer, ⟨pulled.pipes, pulled.origin⟩, pulled.seen⟩

/-- Keeps an element in the last pipe until it is taken. -/
def buffer (x : Element) : List Pipe → List Pipe
  | [] => []
  | pipe :: rest => { pipe with ahead := .buffered x } :: rest

/-- What the last pipe has computed ahead. -/
def lookAhead (p : Pipeline) : LookAhead :=
  match p.pipes with
  | [] => .empty
  | pipe :: _ => pipe.ahead

/-- Whether the last pipe has another element, which is computed ahead if need be. -/
def peekEnd (g : Graph) (p : Pipeline) : Run Bool :=
  match p.lookAhead with
  | .buffered _ => ⟨.ok true, p, []⟩
  | .exhausted => ⟨.ok false, p, []⟩
  | .empty =>
    let run := p.pullEnd g
    match run.answer with
    | .ok none => { run with answer := .ok false }
    | .ok (some x) =>
      { run with
        answer := .ok true
        pipeline := { run.pipeline with pipes := buffer x run.pipeline.pipes } }
    | .error e => { run with answer := .error e }

/-! ## Requests to the pipeline -/

/-- A pipeline runs when it has a pipe and a source. -/
def ready (p : Pipeline) : Except GraphError Unit :=
  if p.pipes.isEmpty then throw (.invalidState .noPipes)
  else if !p.origin.isBound then throw (.invalidState .noStarts)
  else return ()

/-- Runs an operation on a pipeline that is ready. -/
def guarded {α : Type} (p : Pipeline) (operation : Pipeline → Run α) : Run α :=
  match p.ready with
  | .error e => ⟨.error e, p, []⟩
  | .ok () => operation p

/-- Whether another element is available. -/
def hasNext (g : Graph) (p : Pipeline) : Run Bool := p.guarded (peekEnd g)

def next (g : Graph) (p : Pipeline) : Run (Option Element) := p.guarded (pullEnd g)

/-- An upper bound on the elements that a pipeline can still deliver. -/
def weight (g : Graph) (p : Pipeline) : Nat := BookmarkGraph.weight g p.pipes p.origin

theorem weight_pullEnd {g : Graph} {p : Pipeline} {x : Element}
    (h : (p.pullEnd g).answer = .ok (some x)) : (p.pullEnd g).pipeline.weight g < p.weight g := by
  apply (pull g p.pipes p.origin).property x
  simp only [pullEnd] at h
  split at h <;> simp_all

private theorem weight_buffer (g : Graph) (x : Element) (pipes : List Pipe) (origin : Origin) :
    BookmarkGraph.weight g (buffer x pipes) origin ≤ BookmarkGraph.weight g pipes origin + 1 := by
  cases pipes with
  | nil => simp [buffer]
  | cons pipe rest =>
    have hheld : pipe.stage.pending ≤ pipe.held := by unfold Pipe.held; split <;> omega
    simp only [buffer, BookmarkGraph.weight, Pipe.held] at *
    omega

theorem weight_peekEnd {g : Graph} {p : Pipeline} (h : (p.peekEnd g).answer = .ok true) :
    (p.peekEnd g).pipeline.weight g ≤ p.weight g := by
  unfold peekEnd at h ⊢
  cases hahead : p.lookAhead with
  | buffered _ | exhausted => exact Nat.le_refl _
  | empty =>
    simp only [hahead] at h ⊢
    cases ha : (p.pullEnd g).answer with
    | error e => simp [ha] at h
    | ok result =>
      cases result with
      | none => simp [ha] at h
      | some x =>
        have hlt := weight_pullEnd ha
        have hb := weight_buffer g x (p.pullEnd g).pipeline.pipes (p.pullEnd g).pipeline.origin
        unfold weight at hlt ⊢
        simp only at hlt hb ⊢
        omega

/-- Every remaining element in order, asking for each one before taking it. Elements before an error
are lost. -/
def drain (g : Graph) (p : Pipeline) : Run (List Element) :=
  let peeked := p.peekEnd g
  match _hp : peeked.answer with
  | .error e => { peeked with answer := .error e }
  | .ok false => { peeked with answer := .ok [] }
  | .ok true =>
    let run := peeked.pipeline.pullEnd g
    match _hr : run.answer with
    | .error e => { run with answer := .error e, seen := peeked.seen ++ run.seen }
    | .ok none => { run with answer := .ok [], seen := peeked.seen ++ run.seen }
    | .ok (some x) =>
      let rest := run.pipeline.drain g
      ⟨rest.answer.map (x :: ·), rest.pipeline, peeked.seen ++ run.seen ++ rest.seen⟩
termination_by p.weight g
decreasing_by
  exact Nat.lt_of_lt_of_le (weight_pullEnd _hr) (weight_peekEnd _hp)

/-- The number of remaining elements, taking each one without asking first. -/
def drainCount (g : Graph) (p : Pipeline) : Run Nat :=
  let run := p.pullEnd g
  match _hr : run.answer with
  | .error e => { run with answer := .error e }
  | .ok none => { run with answer := .ok 0 }
  | .ok (some _) =>
    let rest := run.pipeline.drainCount g
    ⟨rest.answer.map (· + 1), rest.pipeline, run.seen ++ rest.seen⟩
termination_by p.weight g
decreasing_by exact weight_pullEnd _hr

def toList (g : Graph) (p : Pipeline) : Run (List Element) := p.guarded (drain g)

/-- Drains every remaining element and tells how many there were. -/
def count (g : Graph) (p : Pipeline) : Run Nat := p.guarded (drainCount g)

/-- Drains every remaining element for the observers. -/
def iterate (g : Graph) (p : Pipeline) : Run Unit :=
  let run := p.count g
  { run with answer := run.answer.map fun _ ↦ () }

/-- At most `n` elements, one request for each. -/
def take (g : Graph) (p : Pipeline) : Nat → Run (List Element)
  | 0 => ⟨.ok [], p, []⟩
  | n + 1 =>
    let run := p.next g
    match run.answer with
    | .error e => { run with answer := .error e }
    | .ok none => { run with answer := .ok [] }
    | .ok (some x) =>
      let rest := run.pipeline.take g n
      ⟨rest.answer.map (x :: ·), rest.pipeline, run.seen ++ rest.seen⟩

end Pipeline

end BookmarkGraph
