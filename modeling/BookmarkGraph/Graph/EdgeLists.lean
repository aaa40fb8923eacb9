import BookmarkGraph.Element.Basic
import BookmarkGraph.Table

/-!
# Edges of one vertex, grouped by label

One side of a vertex keeps its edges in groups of one label each. Groups stand in the order in
which their labels were first used and edges within a group in the order of insertion; this is the
order in which a traversal meets them.
-/

namespace BookmarkGraph

/-- The edges on one side of a vertex. -/
structure EdgeLists where
  /-- Labels with their edges. -/
  groups : Table String (List EdgeIndex)
deriving DecidableEq, Repr

namespace EdgeLists

def empty : EdgeLists := ⟨.empty⟩

instance : Inhabited EdgeLists := ⟨empty⟩

/-- Registers an edge at the end of the group of its label. -/
def push (lists : EdgeLists) (label : String) (edge : EdgeIndex) : EdgeLists :=
  ⟨lists.groups.update label fun edges ↦ edges.getD [] ++ [edge]⟩

/-- The edges of one label, in the order of insertion. -/
def get (lists : EdgeLists) (label : String) : List EdgeIndex :=
  (lists.groups.get? label).getD []

def labels (lists : EdgeLists) : List String := lists.groups.keys

/-- All edges, group by group. -/
def all (lists : EdgeLists) : List EdgeIndex := lists.groups.rows.flatMap (·.2)

def size (lists : EdgeLists) : Nat :=
  lists.groups.rows.foldr (fun group n ↦ group.2.length + n) 0

def isEmpty (lists : EdgeLists) : Bool := lists.groups.isEmpty

/-- The edges of the given labels, label by label in the order they are asked for; all edges when
no label is given. -/
def select (lists : EdgeLists) (labels : List String) : List EdgeIndex :=
  if labels.isEmpty then lists.all else labels.flatMap lists.get

end EdgeLists

end BookmarkGraph
