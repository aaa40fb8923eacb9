import BookmarkGraph.Pipe.Pipeline

/-!
# Pipes in boxes

In memory a pipeline has no list of pipes. It owns its last pipe, every pipe owns what feeds it in a
box, and a source that came before the first pipe waits beside them. The number of pipes is a
counter of its own. Nothing in the types ties the parts together: the counter could be wrong, and a
source could be waiting although there is a pipe to bind it to.

`Nested.Holds` says which pipeline the parts are. Binding a source goes down through all boxes to
the innermost pipe, a name is added behind those of the inner pipes, and a reset visits one box
after the other; each of them keeps step with the operation on the pipeline.
-/

namespace BookmarkGraph.Pipeline

/-- What feeds a pipe: nothing, a source, or a pipe in a box with what feeds that one. -/
inductive Starts where
  | unbound
  | source (source : Source)
  | pipe (pipe : Pipe) (starts : Starts)

namespace Starts

/-- The pipes in the boxes, the outermost one first. -/
def pipes : Starts → List Pipe
  | unbound | source _ => []
  | pipe inner starts => inner :: starts.pipes

/-- What feeds the innermost pipe. -/
def origin : Starts → Origin
  | unbound => .unbound
  | source s => .source s
  | pipe _ starts => starts.origin

def isBound : Starts → Bool
  | unbound => false
  | source _ => true
  | pipe _ starts => starts.isBound

def names : Starts → List String
  | unbound | source _ => []
  | pipe inner starts => starts.names ++ [inner.name]

/-- Every pipe in the boxes at the beginning of a run, the source rewound. -/
def reset : Starts → Starts
  | unbound => unbound
  | source s => source s.rewind
  | pipe inner starts => pipe inner.reset starts.reset

/-- Binds a source to the innermost of a pipe and the pipes in its boxes. -/
def bindSource (s : Source) (last : Pipe) : Starts → Pipe × Starts
  | pipe inner starts => (last, pipe (bindSource s inner starts).1 (bindSource s inner starts).2)
  | unbound | source _ => ({ last with ahead := .empty }, source s)

theorem isBound_eq (starts : Starts) : starts.isBound = starts.origin.isBound := by
  induction starts with
  | unbound | source _ => rfl
  | pipe _ _ ih => exact ih

theorem names_eq (starts : Starts) : starts.names = starts.pipes.reverse.map Pipe.name := by
  induction starts with
  | unbound | source _ => rfl
  | pipe inner starts ih => rw [names, pipes, List.reverse_cons, List.map_append, ← ih]; rfl

theorem pipes_reset (starts : Starts) : starts.reset.pipes = starts.pipes.map Pipe.reset := by
  induction starts with
  | unbound | source _ => rfl
  | pipe inner _ ih => exact congrArg (inner.reset :: ·) ih

theorem origin_reset (starts : Starts) : starts.reset.origin = starts.origin.rewind := by
  induction starts with
  | unbound | source _ => rfl
  | pipe _ _ ih => exact ih

theorem origin_bindSource (s : Source) (last : Pipe) (starts : Starts) :
    (bindSource s last starts).2.origin = .source s := by
  induction starts generalizing last with
  | unbound | source _ => rfl
  | pipe inner _ ih => exact ih inner

theorem pipes_bindSource (s : Source) (last : Pipe) (starts : Starts) :
    (bindSource s last starts).1 :: (bindSource s last starts).2.pipes
      = emptyInnermost (last :: starts.pipes) := by
  induction starts generalizing last with
  | unbound | source _ => rfl
  | pipe inner _ ih => exact congrArg (last :: ·) (ih inner)

end Starts

/-- A pipeline in memory. -/
structure Nested where
  /-- The last pipe with what feeds it, once there is a pipe. -/
  last : Option (Pipe × Starts)
  /-- A source that waits for the first pipe. -/
  pending : Option Source
  /-- How many pipes were appended. -/
  len : Nat

namespace Nested

/-- No pipe and no source. -/
def empty : Nested := ⟨none, none, 0⟩

/-- The pipes, the last one first. -/
def pipes (s : Nested) : List Pipe :=
  match s.last with
  | none => []
  | some (pipe, starts) => pipe :: starts.pipes

/-- What the first pipe reads from, or will read from. -/
def origin (s : Nested) : Origin :=
  match s.last, s.pending with
  | some (_, starts), _ => starts.origin
  | none, some source => .source source
  | none, none => .unbound

/-- Binds a source to the first pipe, or keeps it until there is one. -/
def setStarts (s : Nested) (items : List Element) : Nested :=
  match s.last with
  | some (pipe, starts) => { s with last := some (starts.bindSource (.ofList items) pipe) }
  | none => { s with pending := some (.ofList items) }

/-- Appends a pipe and boxes the last one. The first pipe takes the source that waits. -/
def addPipe (s : Nested) (pipe : Pipe) : Nested :=
  match s.last, s.pending with
  | some (previous, starts), pending =>
    ⟨some ({ pipe with ahead := .empty }, .pipe previous starts), pending, s.len + 1⟩
  | none, some source => ⟨some ({ pipe with ahead := .empty }, .source source), none, s.len + 1⟩
  | none, none => ⟨some (pipe, .unbound), none, s.len + 1⟩

/-- The names of the steps from first to last. -/
def describe (s : Nested) : String :=
  match s.last with
  | none => " -> ".intercalate []
  | some (pipe, starts) => " -> ".intercalate (starts.names ++ [pipe.name])

/-- A pipeline runs when it has a pipe and a source. -/
def ready (s : Nested) : Except GraphError Unit :=
  match s.last with
  | none => throw (.invalidState .noPipes)
  | some (_, starts) => if !starts.isBound then throw (.invalidState .noStarts) else return ()

/-- Every pipe at the beginning of a run, the source rewound. -/
def reset (s : Nested) : Nested :=
  { s with last := s.last.map fun (pipe, starts) ↦ (pipe.reset, starts.reset) }

/-- The parts are those of the pipeline. -/
structure Holds (s : Nested) (p : Pipeline) : Prop where
  /-- The boxes have the pipes in their order. -/
  pipes : s.pipes = p.pipes
  /-- The innermost box has the origin, or it waits for the first pipe. -/
  origin : s.origin = p.origin
  /-- The counter counts the pipes. -/
  len : s.len = p.size
  /-- A source waits as long as there is no pipe, and nothing was taken from it. -/
  pending : ∀ source, s.pending = some source → s.last = none ∧ source.rewind = source

theorem holds_empty : Nested.empty.Holds .empty where
  pipes := rfl
  origin := rfl
  len := rfl
  pending := nofun

theorem size_setStarts (p : Pipeline) (items : List Element) :
    (p.setStarts items).size = p.size := by
  rw [size, size, Pipeline.setStarts]
  dsimp only
  fun_induction emptyInnermost p.pipes with
  | case1 | case2 => rfl
  | case3 pipe rest _ ih => exact congrArg (· + 1) ih

namespace Holds

variable {s : Nested} {p : Pipeline}

theorem pending_eq_none (h : s.Holds p) (last : Pipe × Starts) (hlast : s.last = some last) :
    s.pending = none := by
  refine Option.eq_none_iff_forall_ne_some.mpr fun source hsource ↦ ?_
  have hnone := (h.pending source hsource).1
  rw [hlast] at hnone
  cases hnone

theorem setStarts (h : s.Holds p) (items : List Element) :
    (s.setStarts items).Holds (p.setStarts items) := by
  have hnone := h.pending_eq_none
  have hlen : s.len = (p.setStarts items).size := h.len.trans (size_setStarts p items).symm
  obtain ⟨last, waiting, len⟩ := s
  obtain ⟨pipes, origin⟩ := p
  obtain rfl := h.pipes
  cases last with
  | none => exact ⟨rfl, rfl, hlen, fun source hsource ↦ ⟨rfl, Option.some.inj hsource ▸ rfl⟩⟩
  | some last =>
    obtain rfl : waiting = none := hnone last rfl
    exact ⟨Starts.pipes_bindSource _ _ _, Starts.origin_bindSource _ _ _, hlen, nofun⟩

/-- A pipe that is appended has computed nothing ahead. -/
theorem addPipe (h : s.Holds p) {pipe : Pipe} (hahead : pipe.ahead = .empty) :
    (s.addPipe pipe).Holds (p.addPipe pipe) := by
  have hnone := h.pending_eq_none
  have hlen : s.len + 1 = (p.addPipe pipe).size := congrArg (· + 1) h.len
  have hfresh : { pipe with ahead := .empty } = pipe := by rw [← hahead]
  obtain ⟨last, waiting, len⟩ := s
  obtain ⟨pipes, origin⟩ := p
  obtain rfl := h.pipes
  obtain rfl := h.origin
  cases last with
  | some last =>
    obtain rfl : waiting = none := hnone last rfl
    exact ⟨congrArg (· :: _) hfresh, rfl, hlen, nofun⟩
  | none =>
    cases waiting with
    | some source => exact ⟨congrArg (· :: _) hfresh, rfl, hlen, nofun⟩
    | none => exact ⟨rfl, rfl, hlen, nofun⟩

theorem reset (h : s.Holds p) : s.reset.Holds p.reset := by
  have hlen : s.len = p.reset.size := by
    rw [h.len, size, size, Pipeline.reset, List.length_map]
  have hnone := h.pending_eq_none
  have hwaiting := h.pending
  obtain ⟨last, waiting, len⟩ := s
  obtain ⟨pipes, origin⟩ := p
  obtain rfl := h.pipes
  obtain rfl := h.origin
  cases last with
  | some last =>
    obtain rfl : waiting = none := hnone last rfl
    exact ⟨congrArg (_ :: ·) last.2.pipes_reset, last.2.origin_reset, hlen, nofun⟩
  | none =>
    cases waiting with
    | none => exact ⟨rfl, rfl, hlen, nofun⟩
    | some source =>
      -- a source that waits has handed nothing out, so there is nothing to rewind
      refine ⟨rfl, ?_, hlen, hwaiting⟩
      exact congrArg Origin.source (hwaiting source rfl).2.symm

theorem describe_eq (h : s.Holds p) : s.describe = p.describe := by
  rw [Pipeline.describe, ← h.pipes, Nested.pipes, Nested.describe]
  cases s.last with
  | none => rfl
  | some last =>
    dsimp only
    rw [Starts.names_eq, List.reverse_cons, List.map_append]
    rfl

theorem ready_eq (h : s.Holds p) : s.ready = p.ready := by
  rw [Pipeline.ready, ← h.pipes, ← h.origin, Nested.ready, Nested.pipes, Nested.origin]
  cases s.last with
  | none => rfl
  | some last =>
    dsimp only
    rw [Starts.isBound_eq]
    rfl

end Holds

end Nested

end BookmarkGraph.Pipeline
