import BookmarkGraph.Element.Properties
import BookmarkGraph.Json.Reader

/-!
# Ids and property values as JSON

Ids and property values are written without any mark of their kind. Reading tries the kinds in their
order, and a JSON value is taken for the first kind whose form it has.
-/

namespace BookmarkGraph

namespace ElementId

def toJson : ElementId → Json
  | number value => .integer value.toNat
  | name text => .string text

/-- The id that a JSON value stands for: a number if it can be one, and otherwise a name. -/
def ofJson? (json : Json) : Option ElementId :=
  json.asUnsigned?.map number <|> json.asText?.map name

def reader : Reader ElementId := fun bound depth input ↦ do
  let (json, rest) ← Reader.any bound depth input
  match ofJson? json with
  | some id => return (id, rest)
  | none => throw .shape

end ElementId

namespace Value

mutual

def toJson : Value → Json
  | null => .null
  | bool flag => .bool flag
  | integer value => .integer value.toInt
  | float value => .float value
  | text value => .string value
  | list items => .array (toJsonList items)

def toJsonList : List Value → List Json
  | [] => []
  | item :: rest => toJson item :: toJsonList rest

end

mutual

/-- The property value that a JSON value stands for, of the first kind that takes it. Whole numbers
beyond the signed range become floats; objects are no property values. -/
def ofJson? (json : Json) : Option Value :=
  json.asNull?.map (fun _ ↦ null) <|>
  json.asBool?.map bool <|>
  json.asSigned?.map integer <|>
  json.asDouble?.map float <|>
  json.asText?.map text <|>
  match json with
  | .array items => (ofJsonList? items).map list
  | _ => none

def ofJsonList? : List Json → Option (List Value)
  | [] => some []
  | item :: rest => do return (← ofJson? item) :: (← ofJsonList? rest)

end

def reader : Reader Value := fun bound depth input ↦ do
  let (json, rest) ← Reader.any bound depth input
  match ofJson? json with
  | some value => return (value, rest)
  | none => throw .shape

end Value

def Properties.toJson (props : Properties) : Json :=
  .object (props.entries.map fun (key, value) ↦ (key, value.toJson))

end BookmarkGraph
