import BookmarkGraph.Number.Layout
import BookmarkGraph.Number.Width

/-!
# JSON values

A JSON value is a tree. Numbers are integers of 64 bits, signed or unsigned, or floats; objects keep
their members in the order in which they are written.

## Contents

* `Json`;
* `Json.compact`: a value on one line without blanks;
* `Json.pretty`: a value with one member or element per line, two blanks deeper on each level.
-/

namespace BookmarkGraph

inductive Json where
  /-- The null value. -/
  | null
  /-- A truth value. -/
  | bool (flag : Bool)
  /-- A whole number. -/
  | integer (value : Int)
  /-- A number with a fraction or an exponent, or one that is too long for an integer. -/
  | float (value : Double)
  /-- A text. -/
  | string (value : String)
  /-- A list of values. -/
  | array (items : List Json)
  /-- A list of named values. -/
  | object (members : List (String × Json))
deriving Repr, Inhabited

namespace Json

/-! ## Taking apart -/

/-- Whether a JSON value is the null value. -/
def asNull? : Json → Option Unit
  | .null => some ()
  | _ => none

def asBool? : Json → Option Bool
  | .bool b => some b
  | _ => none

def asText? : Json → Option String
  | .string s => some s
  | _ => none

def asTexts? : Json → Option (List String)
  | .array items => items.mapM asText?
  | _ => none

/-- The unsigned number of 64 bits that a JSON value stands for. -/
def asUnsigned? : Json → Option UInt64
  | .integer n => if 0 ≤ n ∧ n < UInt64.size then some (UInt64.ofNat n.toNat) else none
  | _ => none

/-- The signed number of 64 bits that a JSON value stands for. -/
def asSigned? : Json → Option Int64
  | .integer n =>
    if -(signedLimit : Int) ≤ n ∧ n < signedLimit then some (Int64.ofInt n) else none
  | _ => none

/-- The double that a JSON value stands for. A whole number stands for the nearest one. -/
def asDouble? : Json → Option Double
  | .float x => some x
  | .integer n => some (Double.ofInt n)
  | _ => none

/-! ## Texts -/

/-- Floats have the fewest digits that read back, always a point or an exponent, and an exponent
when they are very large or very small; a float without digits is written as null. -/
def layout : Layout where
  tie := .even
  positional := some (-5, 16)
  wholeMark := ".0"
  plus := "+"
  notANumber := "null"
  infinity := "null"
  negativeInfinity := "null"

/-- One character of a text between quotes. -/
def encodeChar (c : Char) : List Char :=
  match c with
  | '"' => ['\\', '"']
  | '\\' => ['\\', '\\']
  | '\x08' => ['\\', 'b']
  | '\x0c' => ['\\', 'f']
  | '\n' => ['\\', 'n']
  | '\r' => ['\\', 'r']
  | '\t' => ['\\', 't']
  | c =>
    if c.toNat < 0x20 then
      ['\\', 'u', '0', '0', Nat.digitChar (c.toNat / 16), Nat.digitChar (c.toNat % 16)]
    else [c]

def quote (text : String) : String :=
  String.ofList ('"' :: text.toList.flatMap encodeChar ++ ['"'])

mutual

/-- A value on one line without blanks. -/
def compact : Json → String
  | null => "null"
  | bool flag => toString flag
  | integer value => toString value
  | float value => layout.text value
  | string value => quote value
  | array items => "[" ++ ",".intercalate (compactItems items) ++ "]"
  | object members => "\x7b" ++ ",".intercalate (compactMembers members) ++ "\x7d"

/-- The elements of an array, each on its own. -/
def compactItems : List Json → List String
  | [] => []
  | item :: rest => compact item :: compactItems rest

/-- The members of an object, each on its own. -/
def compactMembers : List (String × Json) → List String
  | [] => []
  | (key, value) :: rest => (quote key ++ ":" ++ compact value) :: compactMembers rest

end

/-- The beginning of a line on some level. -/
def indent (level : Nat) : String := String.ofList ('\n' :: List.replicate (2 * level) ' ')

/-- Parts between brackets, each on a line of its own one level deeper than the brackets. -/
def block (level : Nat) (opening closing : String) (parts : List String) : String :=
  if parts.isEmpty then opening ++ closing
  else
    let lines := parts.map fun part ↦ indent (level + 1) ++ part
    opening ++ ",".intercalate lines ++ indent level ++ closing

mutual

/-- A value on some level, with its parts on lines of their own. -/
def prettyAt (level : Nat) : Json → String
  | null => "null"
  | bool flag => toString flag
  | integer value => toString value
  | float value => layout.text value
  | string value => quote value
  | array items => block level "[" "]" (prettyItems (level + 1) items)
  | object members => block level "\x7b" "\x7d" (prettyMembers (level + 1) members)

/-- The elements of an array on some level, each on its own. -/
def prettyItems (level : Nat) : List Json → List String
  | [] => []
  | item :: rest => prettyAt level item :: prettyItems level rest

/-- The members of an object on some level, each on its own. -/
def prettyMembers (level : Nat) : List (String × Json) → List String
  | [] => []
  | (key, value) :: rest => (quote key ++ ": " ++ prettyAt level value) :: prettyMembers level rest

end

/-- A value with its parts on lines of their own. -/
def pretty (value : Json) : String := prettyAt 0 value

end Json

end BookmarkGraph
