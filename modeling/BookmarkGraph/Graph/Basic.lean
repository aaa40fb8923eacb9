import BookmarkGraph.Error
import BookmarkGraph.Graph.EdgeLists
import BookmarkGraph.Number.Width
import BookmarkGraph.Table
import BookmarkGraph.Text.Numeral

/-!
# The property graph

A graph owns its vertices and edges in two arenas and only grows. Vertices and edges refer to each
other through their places in the arenas; every vertex also keeps the edges on its two sides,
grouped by label. An index beside the arenas has the places of the ids. All that is asked by id is
asked of the index, and nothing in the types ties it to the vertices.

## Contents

* `Vertex`, `Edge`, `Graph`;
* `Graph.addVertex`, `Graph.addEdge`, `Graph.addEdgeBetween`: the three mutations, which leave a
  graph behind also when they fail;
* `Graph.find?`, `Graph.vertex`, `Graph.edge`, `Graph.edgesOf`: looking things up;
* `Graph.idOf`, `Graph.labelOf`, `Graph.propertiesOf`: what a graph knows about an element;
* `Graph.stats`: element counts per label.
-/

namespace BookmarkGraph

/-- A labelled node with properties. -/
structure Vertex where
  /-- The public id, which no other vertex of the graph has. -/
  id : ElementId
  /-- A category such as `profile` or `listing`. -/
  label : String
  /-- The property map. -/
  properties : Properties
  /-- The edges that leave the vertex. -/
  outgoing : EdgeLists
  /-- The edges that arrive at the vertex. -/
  incoming : EdgeLists
deriving DecidableEq, Repr, Inhabited

/-- A labelled, directed relation between two vertices. -/
structure Edge where
  /-- The public id, one more than the place of the edge. -/
  id : ElementId
  /-- The name of the relation, such as `bookmarked`. -/
  label : String
  /-- The property map. -/
  properties : Properties
  /-- The vertex that the edge leaves. -/
  source : VertexIndex
  /-- The vertex at which the edge arrives. -/
  target : VertexIndex
deriving DecidableEq, Repr, Inhabited

/-- The end of an edge opposite to a vertex; of a loop it is the vertex itself. -/
def Edge.otherEnd (edge : Edge) (vertex : VertexIndex) : VertexIndex :=
  if edge.source = vertex then edge.target else edge.source

/-- A property graph that only grows. -/
structure Graph where
  /-- The vertices in the order of insertion. -/
  vertices : Array Vertex
  /-- The edges in the order of insertion. -/
  edges : Array Edge
  /-- The place of the vertex that an id was given to. -/
  index : Table ElementId VertexIndex
  /-- Where the search for the next automatic id starts. -/
  nextNumber : UInt64
deriving Repr

/-- What a mutation answers, and the graph that it leaves behind even when it fails. -/
structure Mutation (α : Type) where
  /-- The answer. -/
  answer : Except GraphError α
  /-- The graph afterwards. -/
  graph : Graph

namespace Graph

def empty : Graph := ⟨#[], #[], .empty, 1⟩

instance : Inhabited Graph := ⟨empty⟩

/-- How many elements an arena can hold: as many as there are 32-bit indices. -/
def arenaCapacity : Nat := UInt32.size

/-! ## Looking up -/

/-- The place of an id. -/
def find? (g : Graph) (id : ElementId) : Option VertexIndex := g.index.get? id

def hasId (g : Graph) (id : ElementId) : Bool := g.index.contains id

/-- The place of the vertex with an id, which must exist. -/
def getVertex (g : Graph) (id : ElementId) : Except GraphError VertexIndex :=
  match g.find? id with
  | some index => .ok index
  | none => .error (.notFound id)

/-- The vertex at an index that the graph issued. -/
def vertex (g : Graph) (index : VertexIndex) : Except GraphError Vertex :=
  match g.vertices[index.position.toNat]? with
  | some v => .ok v
  | none => .error (.foreignIndex (.vertex index))

/-- The edge at an index that the graph issued. -/
def edge (g : Graph) (index : EdgeIndex) : Except GraphError Edge :=
  match g.edges[index.position.toNat]? with
  | some e => .ok e
  | none => .error (.foreignIndex (.edge index))

/-- The edges of a vertex on the sides of a direction, outgoing edges first. -/
def edgesOf (g : Graph) (index : VertexIndex) (direction : Direction) (labels : List String) :
    Except GraphError (List EdgeIndex) := do
  let v ← g.vertex index
  match direction with
  | .outgoing => return v.outgoing.select labels
  | .incoming => return v.incoming.select labels
  | .either => return v.outgoing.select labels ++ v.incoming.select labels

/-- Every vertex index in the order of insertion. The number of vertices is taken as a 32-bit word,
so a graph whose arena is full lists none. -/
def vertexIndices (g : Graph) : List VertexIndex :=
  (List.range (UInt32.ofNat g.vertices.size).toNat).map fun i ↦ ⟨UInt32.ofNat i⟩

/-- The vertices of one label in the order of insertion. -/
def verticesWithLabel (g : Graph) (label : String) : List VertexIndex :=
  g.vertexIndices.filter fun index ↦
    g.vertices[index.position.toNat]?.any fun v ↦ v.label = label

def vertexCount (g : Graph) : Nat := g.vertices.size

def edgeCount (g : Graph) : Nat := g.edges.size

/-! ## Growing -/

/-- The first number from `candidate` on that has no place as an id. At most as many candidates are
taken as the index has ids, so that many further steps suffice. -/
def freeNumber (g : Graph) (candidate : UInt64) : Nat → UInt64
  | 0 => candidate
  | steps + 1 =>
    if g.hasId (.number candidate) then g.freeNumber (candidate + 1) steps else candidate

/-- Appends a vertex if the arena has room, and enters its place into the index. -/
def appendVertex (g : Graph) (id : ElementId) (label : String) (properties : Properties) :
    Mutation VertexIndex :=
  if g.vertices.size < arenaCapacity then
    let place : VertexIndex := ⟨UInt32.ofNat g.vertices.size⟩
    ⟨.ok place,
      { g with
        index := g.index.update id fun _ ↦ place
        vertices := g.vertices.push ⟨id, label, properties, .empty, .empty⟩ }⟩
  else ⟨.error (.invalidState .arenaFull), g⟩

/-- Inserts a vertex. Without an id of its own it receives the next free number; the number is used
up even when the arena turns out to be full. -/
def addVertex (g : Graph) (label : String) (properties : Properties) (id : Option ElementId) :
    Mutation VertexIndex :=
  match id with
  | some id =>
    if g.hasId id then ⟨.error (.duplicateId id), g⟩ else g.appendVertex id label properties
  | none =>
    let number := g.freeNumber g.nextNumber g.index.size
    { g with nextNumber := number + 1 }.appendVertex (.number number) label properties

/-- Registers a directed edge; parallel edges and loops are kept. -/
def addEdge (g : Graph) (label : String) (source target : VertexIndex) (properties : Properties) :
    Mutation EdgeIndex :=
  if g.vertices.size ≤ source.position.toNat || g.vertices.size ≤ target.position.toNat then
    ⟨.error (.invalidState (.endpointsMissing source target)), g⟩
  else if g.edges.size < arenaCapacity then
    let index : EdgeIndex := ⟨UInt32.ofNat g.edges.size⟩
    let edge : Edge :=
      ⟨.number (UInt64.ofNat (g.edges.size + 1)), label, properties, source, target⟩
    let vertices := g.vertices.modify source.position.toNat fun v ↦
      { v with outgoing := v.outgoing.push label index }
    let vertices := vertices.modify target.position.toNat fun v ↦
      { v with incoming := v.incoming.push label index }
    ⟨.ok index, { g with vertices, edges := g.edges.push edge }⟩
  else ⟨.error (.invalidState .arenaFull), g⟩

/-- Registers a directed edge between two ids, of which the first is resolved first. -/
def addEdgeBetween (g : Graph) (label : String) (source target : ElementId)
    (properties : Properties) : Mutation EdgeIndex :=
  match g.getVertex source with
  | .error e => ⟨.error e, g⟩
  | .ok s =>
    match g.getVertex target with
    | .error e => ⟨.error e, g⟩
    | .ok t => g.addEdge label s t properties

/-! ## Facts about elements -/

/-- The id that a projected text stands for. Numbers above the signed range are projected as their
digits, so a text that names no vertex and spells such a number stands for the number. -/
def projectedName (g : Graph) (name : String) : ElementId :=
  if g.hasId (.name name) then .name name
  else
    match Numeral.unsigned64? name with
    | some value => if signedLimit ≤ value.toNat then .number value else .name name
    | none => .name name

/-- The id of a vertex or edge, or the one carried by a projected element. -/
def idOf (g : Graph) : Element → Except GraphError (Option ElementId)
  | .vertex index => return some (← g.vertex index).id
  | .edge index => return some (← g.edge index).id
  | .id id => return some id
  | .properties props =>
    match props.get? "_id" with
    | some (.text name) => return some (g.projectedName name)
    | some (.integer value) =>
      return if 0 ≤ value.toInt then some (.number (UInt64.ofNat value.toInt.toNat)) else none
    | _ => return none

/-- The label of a vertex or edge. -/
def labelOf (g : Graph) : Element → Except GraphError (Option String)
  | .vertex index => return some (← g.vertex index).label
  | .edge index => return some (← g.edge index).label
  | .id _ | .properties _ => return none

/-- The properties of a vertex or edge, or the projected ones. -/
def propertiesOf (g : Graph) : Element → Except GraphError (Option Properties)
  | .vertex index => return some (← g.vertex index).properties
  | .edge index => return some (← g.edge index).properties
  | .properties props => return some props
  | .id _ => return none

/-! ## Counts -/

/-- Counts one more occurrence of a label among ascending labels. -/
def countLabel (label : String) : List (String × Nat) → List (String × Nat)
  | [] => [(label, 1)]
  | (l, n) :: rest =>
    if label < l then (label, 1) :: (l, n) :: rest
    else if label = l then (l, n + 1) :: rest
    else (l, n) :: countLabel label rest

/-- How often each label occurs, the labels ascending. -/
def labelCounts (labels : List String) : List (String × Nat) :=
  labels.foldl (fun counts label ↦ countLabel label counts) []

end Graph

structure GraphStats where
  /-- The number of vertices. -/
  vertices : Nat
  /-- The number of edges. -/
  edges : Nat
  /-- The number of vertices per label, the labels ascending. -/
  vertexLabels : List (String × Nat)
  /-- The number of edges per label, the labels ascending. -/
  edgeLabels : List (String × Nat)
deriving DecidableEq, Repr

/-- Counts the elements of a graph per label. -/
def Graph.stats (g : Graph) : GraphStats where
  vertices := g.vertexCount
  edges := g.edgeCount
  vertexLabels := labelCounts (g.vertices.toList.map (·.label))
  edgeLabels := labelCounts (g.edges.toList.map (·.label))

end BookmarkGraph
