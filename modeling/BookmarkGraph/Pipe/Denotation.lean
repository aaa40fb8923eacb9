import BookmarkGraph.Pipe.Step

/-!
# What a traversal means

The meaning of a step is a function on finite lists of items, where an item is an element or an
error in the place of one. Nothing here is lazy and nothing has state: hops map every vertex to
what is met on its edges, filters filter, projections map, `distinct` keeps first occurrences and
`limit` keeps everything up to its last element. A traversal means its steps applied one after the
other.
-/

namespace BookmarkGraph

/-- An element, or an error in the place of one. -/
abbrev Item := Except GraphError Element

namespace ElementStep

/-- What becomes of one item; an error stays where it is. -/
def items (g : Graph) (step : ElementStep) : Item → List Item
  | .error e => [.error e]
  | .ok x =>
    match step.apply g x with
    | .error e => [.error e]
    | .ok none => []
    | .ok (some y) => [.ok y]

end ElementStep

namespace Hop

/-- What is met on the edges of one item. -/
def items (g : Graph) (hop : Hop) : Item → List Item
  | .error e => [.error e]
  | .ok x =>
    match hop.start g x with
    | .error e => [.error e]
    | .ok walks => walks.map (hop.arrive g)

end Hop

/-- Everything up to the `n`-th element; errors before it are kept and not counted. -/
def limitItems : Nat → List Item → List Item
  | 0, _ => []
  | _ + 1, [] => []
  | n + 1, .error e :: rest => .error e :: limitItems (n + 1) rest
  | n + 1, .ok x :: rest => .ok x :: limitItems n rest

/-- The items without the elements that occurred before or are in `seen`; errors are kept. -/
def distinctItems (seen : List Element) : List Item → List Item
  | [] => []
  | .error e :: rest => .error e :: distinctItems seen rest
  | .ok x :: rest =>
    if x ∈ seen then distinctItems seen rest else .ok x :: distinctItems (x :: seen) rest

/-- The meaning of a step. -/
def Step.items (g : Graph) (step : Step) (items : List Item) : List Item :=
  match step with
  | element step => items.flatMap (step.items g)
  | hop h => items.flatMap (h.items g)
  | limit bound => limitItems bound items
  | distinct => distinctItems [] items

/-- The meaning of a chain of steps over a source. -/
def denote (g : Graph) (steps : List Step) (source : List Element) : List Item :=
  steps.foldl (fun items step ↦ step.items g items) (source.map .ok)

/-- The elements of a list of items, or its first error. -/
def collect (items : List Item) : Except GraphError (List Element) := items.mapM fun item ↦ item

end BookmarkGraph
