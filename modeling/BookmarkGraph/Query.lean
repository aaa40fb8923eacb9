import BookmarkGraph.Pipe.Pipeline

/-!
# Building traversals

A query is a traversal under construction: a pipeline, or the first thing that went wrong while it
was built. Every call appends exactly one pipe. Problems are remembered and reported only when the
query is run, so that calls can be chained.

## Contents

* `Query.vertices`, `Query.ofIds`, `Query.push`: the three kinds of calls;
* `Call` and `Query.build`: a sequence of calls as data;
* `Query.toPipeline`, `Query.toList`, `Query.toIdList`, `Query.count`, `Query.iterate`: running.
-/

namespace BookmarkGraph

/-- A traversal under construction. -/
structure Query where
  /-- The pipeline built so far, or the first error met. -/
  outcome : Except GraphError Pipeline

namespace Query

/-! ## Building -/

def empty : Query := ⟨.ok .empty⟩

/-- Starts a traversal from a source, through a pipe that passes everything. A traversal has been
started exactly when it has a pipe. -/
def start (source : List Element) (q : Query) : Query :=
  match q.outcome with
  | .error e => ⟨.error e⟩
  | .ok p =>
    if p.pipes.isEmpty then ⟨.ok ((p.setStarts source).addStep .identity)⟩
    else ⟨.error (.invalidState .secondStart)⟩

def vertices (g : Graph) (q : Query) : Query := q.start (g.vertexIndices.map .vertex)

/-- Starts from the vertices of the given ids, in their order. The ids are resolved before anything
else is checked. -/
def ofIds (g : Graph) (ids : List ElementId) (q : Query) : Query :=
  match q.outcome with
  | .error e => ⟨.error e⟩
  | .ok _ =>
    match ids.mapM g.getVertex with
    | .error e => ⟨.error e⟩
    | .ok indices => q.start (indices.map .vertex)

/-- Appends a step to a traversal that has been started. -/
def push (step : Step) (q : Query) : Query :=
  match q.outcome with
  | .error e => ⟨.error e⟩
  | .ok p =>
    if p.pipes.isEmpty then ⟨.error (.invalidState (.stepBeforeStart step.name))⟩
    else ⟨.ok (p.addStep step)⟩

end Query

/-- One call in the construction of a traversal. -/
inductive Call where
  /-- Start from every vertex. -/
  | vertices
  /-- Start from the vertices of the given ids. -/
  | ofIds (ids : List ElementId)
  /-- Append a step. -/
  | step (step : Step)
deriving DecidableEq, Repr

namespace Query

def call (g : Graph) (q : Query) : Call → Query
  | .vertices => q.vertices g
  | .ofIds ids => q.ofIds g ids
  | .step step => q.push step

def build (g : Graph) (calls : List Call) : Query := calls.foldl (call g) empty

/-! ## Running -/

/-- The pipeline that was built, unless something went wrong. -/
def toPipeline (q : Query) : Except GraphError Pipeline := q.outcome

/-- Runs an operation on the pipeline that was built. -/
def run {α : Type} (q : Query) (operation : Pipeline → Run α) :
    Except GraphError α × List Element :=
  match q.outcome with
  | .error e => (.error e, [])
  | .ok p =>
    let run := operation p
    (run.answer, run.seen)

/-- The elements that a traversal delivers, and what observers saw. -/
def toList (g : Graph) (q : Query) : Except GraphError (List Element) × List Element :=
  q.run (Pipeline.toList g)

/-- The projected id of an element. -/
def expectId (x : Element) : Except GraphError ElementId :=
  match x.asId? with
  | some id => .ok id
  | none => .error (.invalidState .idExpected)

/-- The ids of the elements that a traversal delivers, and what observers saw. -/
def toIdList (g : Graph) (q : Query) : Except GraphError (List ElementId) × List Element :=
  let (answer, seen) := (q.push .id).toList g
  (answer.bind fun elements ↦ elements.mapM expectId, seen)

/-- The number of elements that a traversal delivers, and what observers saw. -/
def count (g : Graph) (q : Query) : Except GraphError Nat × List Element :=
  q.run (Pipeline.count g)

/-- Runs a traversal for its observers. -/
def iterate (g : Graph) (q : Query) : Except GraphError Unit × List Element :=
  q.run (Pipeline.iterate g)

end Query

end BookmarkGraph
