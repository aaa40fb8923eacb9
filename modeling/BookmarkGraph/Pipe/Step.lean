import BookmarkGraph.Graph.Basic

/-!
# Steps of a traversal

A `Step` says what one stage of a traversal does, without any state. Three groups differ in what
they remember while they run: an `ElementStep` treats every element on its own, a `Hop` walks the
edges of one vertex after the other, and the two counting steps remember what they have passed.

## Contents

* `ElementStep` and `ElementStep.apply`: what becomes of one element;
* `Hop`, `Hop.start` and `Hop.arrive`: the edges to walk and what is met on each of them;
* `Step`, its names and one constructor function per step a traversal can take.
-/

namespace BookmarkGraph

/-- An end of an edge. -/
inductive EdgeEnd where
  /-- The vertex that the edge leaves. -/
  | source
  /-- The vertex at which the edge arrives. -/
  | target
deriving DecidableEq, Repr

/-- A step that keeps, replaces or drops each element on its own. -/
inductive ElementStep where
  /-- Passes every element. -/
  | identity
  /-- Replaces an edge by one of its ends. -/
  | endpoint (which : EdgeEnd)
  /-- Replaces an element by its id. -/
  | id
  /-- Replaces an element by its properties; internally projected ones carry id and label too. -/
  | properties (internal : Bool)
  /-- Drops the elements whose id is listed. -/
  | excludeIds (ids : List ElementId)
  /-- Keeps the elements with a property of the given value. -/
  | has (key : String) (value : Value)
  /-- Keeps the vertices and edges with one of the labels. -/
  | hasLabel (labels : List String)
  /-- Passes every element and shows it to an observer. -/
  | sideEffect
deriving DecidableEq, Repr

namespace ElementStep

/-- The name of the step. -/
def name : ElementStep → String
  | identity => "identity"
  | endpoint .source => "out_v"
  | endpoint .target => "in_v"
  | id => "id"
  | properties _ => "properties"
  | excludeIds _ => "exclude_ids"
  | has _ _ => "has"
  | hasLabel _ => "has_label"
  | sideEffect => "side_effect"

/-- Keeps an element or drops it. -/
private def keepIf (keep : Bool) (x : Element) : Option Element := if keep then some x else none

/-- The projected properties of an element, with `_id` and `_label` entered over them if asked
for. -/
def project (g : Graph) (internal : Bool) (x : Element) : Except GraphError Properties := do
  let some props ← g.propertiesOf x | throw (.invalidState (.propertiesMissing x.kind))
  if !internal then return props
  let props :=
    match ← g.idOf x with
    | some known => props.insert "_id" (.ofId known)
    | none => props
  match ← g.labelOf x with
  | some label => return props.insert "_label" (.text label)
  | none => return props

/-- What becomes of one element: another element, nothing, or an error in its place. -/
def apply (g : Graph) (step : ElementStep) (x : Element) : Except GraphError (Option Element) :=
  match step with
  | identity | sideEffect => return some x
  | endpoint which =>
    match x with
    | .edge index => do
      let edge ← g.edge index
      match which with
      | .source => return some (.vertex edge.source)
      | .target => return some (.vertex edge.target)
    | other => throw (.invalidState (.edgesExpected step.name other.kind))
  | id => do
    let some known ← g.idOf x | throw (.invalidState (.idMissing x.kind))
    return some (.id known)
  | properties internal => return some (.properties (← project g internal x))
  | excludeIds ids => return keepIf (!(← g.idOf x).any (· ∈ ids)) x
  | has key value =>
    return keepIf ((← g.propertiesOf x).bind (·.get? key) |>.any (· = value)) x
  | hasLabel labels => return keepIf ((← g.labelOf x).any (· ∈ labels)) x

end ElementStep

/-- What a hop over an edge leads to. -/
inductive Landing where
  /-- The vertex at the far end. -/
  | vertex
  /-- The edge itself. -/
  | edge
deriving DecidableEq, Repr

/-- A step from a vertex along its edges. -/
structure Hop where
  /-- What is met on each edge. -/
  landing : Landing
  /-- The sides of the vertex whose edges are walked. -/
  direction : Direction
  /-- The labels of the edges that are walked, in this order; every label if none is given. -/
  labels : List String
deriving DecidableEq, Repr

namespace Hop

/-- The name of the step. -/
def name (hop : Hop) : String :=
  match hop.landing, hop.direction with
  | .vertex, .outgoing => "out"
  | .vertex, .incoming => "in"
  | .vertex, .either => "both"
  | .edge, .outgoing => "out_e"
  | .edge, .incoming => "in_e"
  | .edge, .either => "both_e"

/-- The edges to walk from an element, which must be a vertex, each with the vertex it is walked
from. -/
def start (g : Graph) (hop : Hop) (x : Element) :
    Except GraphError (List (VertexIndex × EdgeIndex)) :=
  match x with
  | .vertex index => return (← g.edgesOf index hop.direction hop.labels).map fun e ↦ (index, e)
  | other => throw (.invalidState (.verticesExpected hop.name other.kind))

/-- What is met on an edge that is walked from a vertex. -/
def arrive (g : Graph) (hop : Hop) (walk : VertexIndex × EdgeIndex) : Except GraphError Element :=
  match hop.landing with
  | .edge => return .edge walk.2
  | .vertex => do
    let edge ← g.edge walk.2
    match hop.direction with
    | .outgoing => return .vertex edge.target
    | .incoming => return .vertex edge.source
    | .either => return .vertex (edge.otherEnd walk.1)

end Hop

/-- One step of a traversal. -/
inductive Step where
  /-- A step that treats every element on its own. -/
  | element (step : ElementStep)
  /-- A step along the edges of every vertex. -/
  | hop (hop : Hop)
  /-- Passes a number of elements, then ends. -/
  | limit (bound : Nat)
  /-- Passes the first of equal elements. -/
  | distinct
deriving DecidableEq, Repr

namespace Step

/-- The name of a step, as descriptions and errors give it. -/
def name : Step → String
  | element step => step.name
  | hop h => h.name
  | limit _ => "limit"
  | distinct => "distinct"

def identity : Step := element .identity

/-- To the vertices at the far ends of outgoing edges. -/
def out (labels : List String) : Step := hop ⟨.vertex, .outgoing, labels⟩

/-- To the vertices at the far ends of incoming edges. -/
def into (labels : List String) : Step := hop ⟨.vertex, .incoming, labels⟩

def both (labels : List String) : Step := hop ⟨.vertex, .either, labels⟩

def outEdges (labels : List String) : Step := hop ⟨.edge, .outgoing, labels⟩

def inEdges (labels : List String) : Step := hop ⟨.edge, .incoming, labels⟩

/-- To the outgoing, then the incoming edges. -/
def bothEdges (labels : List String) : Step := hop ⟨.edge, .either, labels⟩

/-- To the vertices at which edges arrive. -/
def targets : Step := element (.endpoint .target)

/-- To the vertices that edges leave. -/
def sources : Step := element (.endpoint .source)

def id : Step := element .id

/-- To the properties of elements. -/
def properties (internal : Bool) : Step := element (.properties internal)

/-- Without the elements of the given ids. -/
def excludeIds (ids : List ElementId) : Step := element (.excludeIds ids)

/-- Only elements with a property of the given value. -/
def has (key : String) (value : Value) : Step := element (.has key value)

/-- Only vertices and edges with one of the labels. -/
def hasLabel (labels : List String) : Step := element (.hasLabel labels)

/-- Every element, shown to an observer as it passes. -/
def sideEffect : Step := element .sideEffect

end Step

end BookmarkGraph
