import BookmarkGraph.Element.Properties

/-!
# Elements of a traversal

What flows through a traversal is a vertex or an edge of a graph, named by its place in the graph's
arenas, or something projected out of one: an id or a property map.
-/

namespace BookmarkGraph

/-- The place of a vertex among the vertices of its graph. -/
structure VertexIndex where
  /-- The position, from zero. -/
  position : UInt32
deriving DecidableEq, Repr, Inhabited

/-- The place of an edge among the edges of its graph. -/
structure EdgeIndex where
  /-- The position, from zero. -/
  position : UInt32
deriving DecidableEq, Repr, Inhabited

/-- Which edges of a vertex are meant. -/
inductive Direction where
  /-- Edges that leave the vertex. -/
  | outgoing
  /-- Edges that arrive at the vertex. -/
  | incoming
  /-- Edges that leave, then edges that arrive. -/
  | either
deriving DecidableEq, Repr

/-- A value that flows through a traversal. -/
inductive Element where
  /-- A vertex of the graph. -/
  | vertex (index : VertexIndex)
  /-- An edge of the graph. -/
  | edge (index : EdgeIndex)
  /-- A projected id. -/
  | id (id : ElementId)
  /-- A projected property map. -/
  | properties (props : Properties)
deriving DecidableEq, Repr, Inhabited

/-- The four kinds of elements. -/
inductive ElementKind where
  /-- The kind of vertices. -/
  | vertex
  /-- The kind of edges. -/
  | edge
  /-- The kind of projected ids. -/
  | id
  /-- The kind of projected property maps. -/
  | properties
deriving DecidableEq, Repr

namespace ElementKind

def text : ElementKind → String
  | vertex => "vertex"
  | edge => "edge"
  | id => "id"
  | properties => "properties"

end ElementKind

namespace Element

def kind : Element → ElementKind
  | vertex _ => .vertex
  | edge _ => .edge
  | .id _ => .id
  | properties _ => .properties

def asVertex? : Element → Option VertexIndex
  | vertex index => some index
  | _ => none

def asEdge? : Element → Option EdgeIndex
  | edge index => some index
  | _ => none

/-- The projected id, if the element is one. -/
def asId? : Element → Option ElementId
  | .id value => some value
  | _ => none

/-- The projected property map, if the element is one. -/
def asProperties? : Element → Option Properties
  | properties props => some props
  | _ => none

end Element

end BookmarkGraph
