import BookmarkGraph.Element.Id
import BookmarkGraph.Number.Layout
import BookmarkGraph.Number.Width

/-!
# Property values

A property holds null, a flag, an integer, a float, a text or a list of such values. Equality is
structural; floats are compared by their bits, so a NaN equals itself and the two zeros differ, and
whole property maps can be compared and deduplicated.
-/

namespace BookmarkGraph

/-- The value of a property. -/
inductive Value where
  /-- A missing value. -/
  | null
  /-- A flag. -/
  | bool (flag : Bool)
  /-- A signed integer. -/
  | integer (value : Int64)
  /-- A floating point number. -/
  | float (value : Double)
  /-- A text. -/
  | text (value : String)
  /-- An ordered list of values. -/
  | list (items : List Value)
deriving Repr, Inhabited

namespace Value

/-! ## Equality -/

mutual

private def decEqValue : (a b : Value) → Decidable (a = b)
  | null, null => isTrue rfl
  | bool a, bool b =>
    if h : a = b then isTrue (h ▸ rfl) else isFalse fun e ↦ h (by injection e)
  | integer a, integer b =>
    if h : a = b then isTrue (h ▸ rfl) else isFalse fun e ↦ h (by injection e)
  | float a, float b =>
    if h : a = b then isTrue (h ▸ rfl) else isFalse fun e ↦ h (by injection e)
  | text a, text b =>
    if h : a = b then isTrue (h ▸ rfl) else isFalse fun e ↦ h (by injection e)
  | list a, list b =>
    match decEqList a b with
    | isTrue h => isTrue (h ▸ rfl)
    | isFalse h => isFalse fun e ↦ h (by injection e)
  | null, bool _ | null, integer _ | null, float _ | null, text _ | null, list _
  | bool _, null | bool _, integer _ | bool _, float _ | bool _, text _ | bool _, list _
  | integer _, null | integer _, bool _ | integer _, float _ | integer _, text _
  | integer _, list _
  | float _, null | float _, bool _ | float _, integer _ | float _, text _ | float _, list _
  | text _, null | text _, bool _ | text _, integer _ | text _, float _ | text _, list _
  | list _, null | list _, bool _ | list _, integer _ | list _, float _ | list _, text _ =>
    isFalse (by intro h; cases h)

private def decEqList : (a b : List Value) → Decidable (a = b)
  | [], [] => isTrue rfl
  | [], _ :: _ | _ :: _, [] => isFalse (by intro h; cases h)
  | a :: as, b :: bs =>
    match decEqValue a b, decEqList as bs with
    | isTrue h, isTrue hs => isTrue (h ▸ hs ▸ rfl)
    | isFalse h, _ => isFalse fun e ↦ h (by injection e)
    | _, isFalse hs => isFalse fun e ↦ hs (by injection e)

end

instance : DecidableEq Value := decEqValue

/-! ## Views -/

def asText? : Value → Option String
  | text value => some value
  | _ => none

def asBool? : Value → Option Bool
  | bool flag => some flag
  | _ => none

def asInteger? : Value → Option Int64
  | integer value => some value
  | _ => none

/-- An id as a property value: a number that is too large for a signed integer becomes the text of
its digits. -/
def ofId : ElementId → Value
  | .number value =>
    if value.toNat < signedLimit then integer (Int64.ofNat value.toNat)
    else text (toString value.toNat)
  | .name value => text value

/-! ## Display -/

/-- Floats are displayed with the fewest digits that read back, never with an exponent. -/
def displayLayout : Layout where
  tie := .away
  positional := none
  wholeMark := ""
  plus := ""
  notANumber := "NaN"
  infinity := "inf"
  negativeInfinity := "-inf"

mutual

/-- The text of a value for a reader: texts stand in quotes, without escapes. -/
def display : Value → String
  | null => "null"
  | bool flag => toString flag
  | integer value => toString value.toInt
  | float value => displayLayout.text value
  | text value => "\"" ++ value ++ "\""
  | list items => "[" ++ ", ".intercalate (displayList items) ++ "]"

def displayList : List Value → List String
  | [] => []
  | item :: rest => display item :: displayList rest

end

end Value

end BookmarkGraph
