import BookmarkGraph.Config.Basic
import BookmarkGraph.Error
import BookmarkGraph.Json.Basic

/-!
# Settings as JSON

Settings are written as an object, or as an array of the fields in the order of their declaration.
What is not given keeps its default; unknown keys are ignored.
-/

namespace BookmarkGraph

/-- The weighting that a JSON value stands for: a name, or an object with the name as its one key
and null behind it. -/
def Weighting.ofJson? : Json → Option Weighting
  | .string name => Weighting.ofName? name
  | .object [(name, .null)] => Weighting.ofName? name
  | _ => none

namespace Config

/-- The settings that a JSON value stands for. -/
def ofJson? : Json → Option Config
  | .object members =>
    let field (key : String) : Option Json := members.reverse.lookup key
    ofFields? ((field "top_n").map Json.asUnsigned?) ((field "weighting").map Weighting.ofJson?)
      ((field "strategies").map Json.asTexts?) ((field "respect_visibility").map Json.asBool?)
      ((field "log_level").map Json.asText?)
  | .array items =>
    if 5 < items.length then none
    else
      ofFields? (items[0]?.map Json.asUnsigned?) (items[1]?.map Weighting.ofJson?)
        (items[2]?.map Json.asTexts?) (items[3]?.map Json.asBool?) (items[4]?.map Json.asText?)
  | _ => none

/-- The settings that a JSON value stands for, a value of another shape being an error. -/
def ofJson (j : Json) : Except GraphError Config :=
  match ofJson? j with
  | some config => .ok config
  | none => .error (.document .shape)

end Config

end BookmarkGraph
