import BookmarkGraph.Pipe.Pipeline
import BookmarkGraph.Text.Quoted

/-!
# Showing elements and pipes as they are built

The structural text of a value names its constructors and quotes its texts, so that values which
read alike can be told apart.
-/

namespace BookmarkGraph

/-- The structural text of an id. -/
def ElementId.inspect : ElementId → String
  | number value => "Int(" ++ toString value.toNat ++ ")"
  | name text => "Name(" ++ Quoted.encode text ++ ")"

namespace Value

/-- In structural texts a float always shows that it is one, and has an exponent when it is very
large or very small. -/
def inspectLayout : Layout where
  tie := .away
  positional := some (-4, 16)
  wholeMark := ".0"
  plus := ""
  notANumber := "NaN"
  infinity := "inf"
  negativeInfinity := "-inf"

mutual

/-- The structural text of a value. -/
def inspect : Value → String
  | null => "Null"
  | bool flag => "Bool(" ++ toString flag ++ ")"
  | integer value => "Integer(" ++ toString value.toInt ++ ")"
  | float value => "Float(" ++ inspectLayout.text value ++ ")"
  | text value => "String(" ++ Quoted.encode value ++ ")"
  | list items => "List([" ++ ", ".intercalate (inspectList items) ++ "])"

def inspectList : List Value → List String
  | [] => []
  | item :: rest => inspect item :: inspectList rest

end

end Value

def Properties.inspect (props : Properties) : String :=
  let entries := props.entries.map fun (key, value) ↦ Quoted.encode key ++ ": " ++ value.inspect
  "\x7b" ++ ", ".intercalate entries ++ "\x7d"

def Element.inspect : Element → String
  | vertex index => "Vertex(" ++ index.text ++ ")"
  | edge index => "Edge(" ++ index.text ++ ")"
  | .id value => "Id(" ++ value.inspect ++ ")"
  | properties props => "Properties(" ++ props.inspect ++ ")"

/-- The structural text of what a pipe has computed ahead. -/
def LookAhead.inspect : LookAhead → String
  | empty => "Empty"
  | buffered element => "Buffered(" ++ element.inspect ++ ")"
  | exhausted => "Exhausted"

namespace Pipeline

/-- What the last pipe of a pipeline reads from. -/
def inspectStarts (p : Pipeline) : String :=
  match p.pipes, p.origin with
  | _ :: feed :: _, _ => "Pipe(" ++ feed.name ++ ")"
  | _, .source s => "Source(" ++ toString s.size ++ " elements)"
  | _, .unbound => "Unbound"

/-- The structural text of the last pipe of a pipeline. -/
def inspectEnd (p : Pipeline) : String :=
  match p.pipes with
  | [] => ""
  | pipe :: _ =>
    "Pipe \x7b step: " ++ Quoted.encode pipe.name ++ ", starts: " ++ p.inspectStarts
      ++ ", state: " ++ pipe.ahead.inspect ++ " \x7d"

/-- The structural text of a pipeline; a source is pending as long as no pipe reads from it. -/
def inspect (p : Pipeline) : String :=
  "Pipeline \x7b steps: " ++ Quoted.encode p.describe ++ ", pending_source: "
    ++ toString (p.pipes.isEmpty && p.origin.isBound) ++ " \x7d"

end Pipeline

end BookmarkGraph
