import BookmarkGraph.Pipe.Step

/-!
# Steps in progress

A `Stage` is a step together with what it remembers during a run: a hop the edges of the current
vertex that are still to be walked, a limit how many elements it has passed, a distinct step the
elements it has passed. `Stage.poll` answers a request without asking its feed where that is
possible, `Stage.receive` handles one element from the feed; between the two a stage never needs
more than one element at a time. The feed is the pipe or the source in front of a stage.
-/

namespace BookmarkGraph

/-- A step with its memory of the current run. -/
inductive Stage where
  /-- A step without memory. -/
  | element (step : ElementStep)
  /-- A hop with the edges that are still to be walked. -/
  | hop (hop : Hop) (pending : List (VertexIndex × EdgeIndex))
  /-- A limit with the number of elements passed. -/
  | limit (bound passed : Nat)
  /-- A distinct step with the elements passed. -/
  | distinct (seen : List Element)
deriving DecidableEq, Repr

/-- What a stage does next. -/
inductive Reply where
  /-- It reports the end of its sequence. -/
  | finish
  /-- It hands an element or an error on. -/
  | give (item : Except GraphError Element) (stage : Stage)
  /-- It needs an element from its feed. -/
  | ask (stage : Stage)

/-- A step at the beginning of a run. -/
def Step.start : Step → Stage
  | element step => .element step
  | hop h => .hop h []
  | limit bound => .limit bound 0
  | distinct => .distinct []

/-- The greatest number of edges that a hop walks from one vertex of a graph. -/
def Hop.fanout (g : Graph) (hop : Hop) : Nat :=
  (g.vertices.toList.map fun v ↦
    (v.outgoing.select hop.labels).length + (v.incoming.select hop.labels).length).foldr max 0

namespace Stage

def step : Stage → Step
  | element step => .element step
  | hop h _ => .hop h
  | limit bound _ => .limit bound
  | distinct _ => .distinct

/-- The stage with nothing remembered: a hop drops the edges that it has not walked, a limit starts
counting from zero, a distinct step clears the elements that it has passed. -/
def reset : Stage → Stage
  | element step => element step
  | hop h _ => hop h []
  | limit bound _ => limit bound 0
  | distinct _ => distinct []

/-- Whether a stage shows the elements that it receives to an observer. -/
def observes : Stage → Bool
  | element .sideEffect => true
  | _ => false

/-- The number of results that a stage can still give without asking its feed. -/
def pending : Stage → Nat
  | hop _ pending => pending.length
  | _ => 0

/-- What a stage does on a request, before anything is pulled from its feed. -/
def poll (g : Graph) : Stage → Reply
  | element step => .ask (element step)
  | hop h [] => .ask (hop h [])
  | hop h (walk :: pending) => .give (h.arrive g walk) (hop h pending)
  | limit bound passed => if bound ≤ passed then .finish else .ask (limit bound passed)
  | distinct seen => .ask (distinct seen)

/-- What a stage does with an element from its feed. -/
def receive (g : Graph) (x : Element) : Stage → Reply
  | element step =>
    match step.apply g x with
    | .error e => .give (.error e) (element step)
    | .ok none => .ask (element step)
    | .ok (some y) => .give (.ok y) (element step)
  | hop h pending =>
    match h.start g x with
    | .error e => .give (.error e) (hop h pending)
    | .ok walks => .ask (hop h walks)
  | limit bound passed => .give (.ok x) (limit bound (passed + 1))
  | distinct seen =>
    if x ∈ seen then .ask (distinct seen) else .give (.ok x) (distinct (x :: seen))

/-! ## How much a stage multiplies -/

/-- A bound on the results that one element from the feed can lead to beyond the first. -/
def fanout (g : Graph) : Stage → Nat
  | hop h _ => h.fanout g
  | _ => 0

end Stage

end BookmarkGraph
