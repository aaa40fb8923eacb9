/-!
# Ids of vertices and edges

An id is a number assigned by the graph or a name given from outside. The number `5` and the name
`"5"` are different ids, although both are written `5`.
-/

namespace BookmarkGraph

/-- The public id of a vertex or edge. -/
inductive ElementId where
  /-- A sequential number. -/
  | number (value : UInt64)
  /-- A name given from outside, such as `p-1`. -/
  | name (text : String)
deriving DecidableEq, Repr, Inhabited, Hashable

namespace ElementId

/-- The text of an id: the decimal digits of a number, or the name as it is. -/
def text : ElementId → String
  | number value => toString value.toNat
  | name text => text

def asName? : ElementId → Option String
  | number _ => none
  | name text => some text

/-- Numbers come before names, numbers in their order, names in the order of their code points. -/
def le : ElementId → ElementId → Bool
  | number a, number b => a ≤ b
  | number _, name _ => true
  | name _, number _ => false
  | name a, name b => a ≤ b

def sort (ids : List ElementId) : List ElementId := ids.mergeSort le

end ElementId

end BookmarkGraph
