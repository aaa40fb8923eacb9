import BookmarkGraph.Query
import BookmarkGraph.Text.Fields

/-!
# The language of steps

A traversal is written as steps with commas between them. A step is a name, with an argument behind
a colon if it takes one: labels or ids with bars between them, a number, or a key and a value with
an equals sign between them. White space around names, arguments and their parts does not count,
and neither do empty steps.

## Contents

* `StepLanguage.id`, `StepLanguage.value`: ids and values as they are written;
* `StepLanguage.step`: one step;
* `StepLanguage.append`, `StepLanguage.extend`: append one step, and the steps of a text, to a
  query.
-/

namespace BookmarkGraph.StepLanguage

/-- The id that a text stands for: the number that it spells, if it is nothing but digits and the
number fits into 64 bits, and otherwise the text as a name. -/
def id (text : List Char) : ElementId :=
  match Numeral.natural? text with
  | some n => if n < UInt64.size then .number (UInt64.ofNat n) else .name (String.ofList text)
  | none => .name (String.ofList text)

/-- The value that a text stands for: an integer or a flag if it reads as one, and otherwise the
text itself. -/
def value (text : List Char) : Value :=
  let text := String.ofList text
  match Numeral.signed64? text with
  | some n => .integer n
  | none => if text = "true" then .bool true else if text = "false" then .bool false else .text text

/-- The fields of an argument with bars between them. -/
def fields (argument : Option (List Char)) : List (List Char) :=
  match argument with
  | none => []
  | some text => Fields.list '|' text

def labels (argument : Option (List Char)) : List String := (fields argument).map String.ofList

def limit (token : List Char) (argument : Option (List Char)) : Except GraphError Step :=
  match argument.bind fun text ↦ Numeral.unsigned64? (String.ofList text) with
  | some n => .ok (.limit n.toNat)
  | none => .error (.invalidArgument (.limitNumberMissing (String.ofList token)))

def condition (token : List Char) (argument : Option (List Char)) : Except GraphError Step :=
  match argument.bind (Fields.splitOnce '=') with
  | some (key, text) => .ok (.has (String.ofList (Fields.trim key)) (value (Fields.trim text)))
  | none => .error (.invalidArgument (.conditionMissing (String.ofList token)))

/-- A step from its name and its argument. Steps that take no argument ignore one. -/
def named (token : List Char) (name : String) (argument : Option (List Char)) :
    Except GraphError Step :=
  match name with
  | "out" => .ok (.out (labels argument))
  | "in" => .ok (.into (labels argument))
  | "both" => .ok (.both (labels argument))
  | "out_e" => .ok (.outEdges (labels argument))
  | "in_e" => .ok (.inEdges (labels argument))
  | "both_e" => .ok (.bothEdges (labels argument))
  | "in_v" => .ok .targets
  | "out_v" => .ok .sources
  | "id" => .ok .id
  | "properties" | "to_dict" => .ok (.properties false)
  | "internal_properties" => .ok (.properties true)
  | "distinct" => .ok .distinct
  | "limit" => limit token argument
  | "exclude" => .ok (.excludeIds ((fields argument).map id))
  | "has" => condition token argument
  | "has_label" => .ok (.hasLabel (labels argument))
  | other => .error (.invalidArgument (.unknownStep other))

/-- The step that a token stands for. -/
def step (token : List Char) : Except GraphError Step :=
  match Fields.splitOnce ':' token with
  | some (name, argument) =>
    named token (String.ofList (Fields.trim name)) (some (Fields.trim argument))
  | none => named token (String.ofList (Fields.trim token)) none

/-- Appends the step that a token stands for. A malformed token is reported even if the query has
gone wrong already. -/
def append (q : Query) (token : List Char) : Except GraphError Query := do
  return q.push (← step token)

/-- Appends the steps of a text to a query, one token after the other. -/
def extend (q : Query) (text : String) : Except GraphError Query :=
  (Fields.list ',' text.toList).foldlM append q

end BookmarkGraph.StepLanguage
