import BookmarkGraph.Json.Scan

/-!
# Reading JSON texts

A `Reader` reads a value of a known type from the front of a JSON text. Types are checked while the
text is read, so of two faults the one that stands first in the text is reported: a value of the
wrong shape, a malformed text, or a text that ends too early.

Containers nest at most `Reader.depthLimit` deep. Members of a record that it does not know are
skipped, and what is skipped may nest to any depth.

## Contents

* `Reader.bool`, `Reader.string`, `Reader.unsigned`, `Reader.optional`, `Reader.list`;
* `Reader.any`: every JSON value, as a tree;
* `Field` and `Reader.record`: records, written as objects or as arrays of their fields;
* `Reader.document`: a whole text.
-/

namespace BookmarkGraph

open Json.Scan (Attempt Parsed)

/-- Reads a value from the front of a text. The first argument bounds the number of values and
symbols on the way, the second one says how deep containers may still nest. -/
abbrev Reader (α : Type) := (bound depth : Nat) → List Symbol → Attempt (Parsed α)

namespace Reader

/-! ## Values of the wrong shape -/

/-- The fault of something that was read where another type is expected. -/
def wrongShape {α : Type} : Attempt α → DocumentFault
  | .error fault => fault
  | .ok _ => .shape

/-- The fault of a value that does not have the expected type: it has the wrong shape, unless its
first part is broken already. -/
def mismatch (bound : Nat) (input : List Symbol) : DocumentFault :=
  match input with
  | [] => .early
  | some 'n' :: rest => wrongShape (Json.Scan.word ['u', 'l', 'l'] rest)
  | some 't' :: rest => wrongShape (Json.Scan.word ['r', 'u', 'e'] rest)
  | some 'f' :: rest => wrongShape (Json.Scan.word ['a', 'l', 's', 'e'] rest)
  | some '-' :: rest => wrongShape (Json.Scan.number true rest)
  | some '"' :: rest => wrongShape (Json.Scan.text bound rest)
  | some '[' :: _ | some '\x7b' :: _ => .shape
  | s :: rest =>
    if Json.Scan.isDigit s then wrongShape (Json.Scan.number false (s :: rest)) else .syntactic

/-! ## Simple values -/

def bool : Reader Bool := fun bound _ input ↦
  match Json.Scan.blanks input with
  | some 't' :: rest => do return (true, ← Json.Scan.word ['r', 'u', 'e'] rest)
  | some 'f' :: rest => do return (false, ← Json.Scan.word ['a', 'l', 's', 'e'] rest)
  | other => .error (mismatch bound other)

def string : Reader String := fun bound _ input ↦
  match Json.Scan.blanks input with
  | some '"' :: rest => Json.Scan.text bound rest
  | other => .error (mismatch bound other)

/-- The unsigned number of 64 bits that a JSON number stands for. -/
def toUnsigned : Json → Attempt UInt64
  | .integer n => if 0 ≤ n then .ok (UInt64.ofNat n.toNat) else .error .shape
  | _ => .error .shape

/-- A whole number of 64 bits without a sign. -/
def unsigned : Reader UInt64 := fun bound _ input ↦
  match Json.Scan.blanks input with
  | some '-' :: rest => do
    let (n, rest) ← Json.Scan.number true rest
    return (← toUnsigned n, rest)
  | s :: rest =>
    if Json.Scan.isDigit s then do
      let (n, rest) ← Json.Scan.number false (s :: rest)
      return (← toUnsigned n, rest)
    else .error (mismatch bound (s :: rest))
  | [] => .error .early

/-- The null value, or a value of some type. -/
def optional {α : Type} (reader : Reader α) : Reader (Option α) := fun bound depth input ↦
  match Json.Scan.blanks input with
  | some 'n' :: rest => do return (none, ← Json.Scan.word ['u', 'l', 'l'] rest)
  | other => do
    let (x, rest) ← reader bound depth other
    return (some x, rest)

/-! ## Containers -/

/-- Looks for the next element of an array: where it begins, or `none` in front of the closing
bracket. -/
def nextElement (first : Bool) (input : List Symbol) : Attempt (Option (List Symbol)) :=
  match Json.Scan.blanks input, first with
  | [], _ => .error .early
  | some ']' :: _, _ => .ok none
  | some ',' :: rest, false =>
    match Json.Scan.blanks rest with
    | [] => .error .early
    | some ']' :: _ => .error .syntactic
    | other => .ok (some other)
  | other, true => .ok (some other)
  | _, false => .error .syntactic

/-- Looks for the next member of an object: what is left behind the opening quote of its key, or
`none` in front of the closing brace. -/
def nextMember (first : Bool) (input : List Symbol) : Attempt (Option (List Symbol)) :=
  match Json.Scan.blanks input, first with
  | [], _ => .error .early
  | some '\x7d' :: _, _ => .ok none
  | some ',' :: rest, false =>
    match Json.Scan.blanks rest with
    | [] => .error .early
    | some '"' :: rest => .ok (some rest)
    | _ => .error .syntactic
  | some '"' :: rest, true => .ok (some rest)
  | _, _ => .error .syntactic

/-- What is left behind the colon between a key and its value. -/
def colon (input : List Symbol) : Attempt (List Symbol) :=
  match Json.Scan.blanks input with
  | [] => .error .early
  | some ':' :: rest => .ok rest
  | _ => .error .syntactic

/-- What is left behind the closing symbol of a container. -/
def close (closing : Char) (input : List Symbol) : Attempt (List Symbol) :=
  match Json.Scan.blanks input with
  | [] => .error .early
  | s :: rest => if s = some closing then .ok rest else .error .syntactic

def elements {α : Type} (reader : Reader α) (depth : Nat) :
    Nat → Bool → List Symbol → Attempt (Parsed (List α))
  | 0, _, _ => .error .early
  | bound + 1, first, input => do
    match ← nextElement first input with
    | none => return ([], ← close ']' input)
    | some start =>
      let (x, rest) ← reader bound depth start
      let (xs, rest) ← elements reader depth bound false rest
      return (x :: xs, rest)

/-- An array whose elements have one type. -/
def list {α : Type} (reader : Reader α) : Reader (List α) := fun bound depth input ↦
  match Json.Scan.blanks input, depth with
  | some '[' :: _, 0 => .error .syntactic
  | some '[' :: rest, depth + 1 => elements reader depth bound true rest
  | other, _ => .error (mismatch bound other)

/-! ## Any value -/

mutual

/-- Every JSON value, as a tree. -/
def any : Reader Json
  | 0, _, _ => .error .early
  | bound + 1, depth, input =>
    match Json.Scan.blanks input, depth with
    | [], _ => .error .early
    | some 'n' :: rest, _ => do return (.null, ← Json.Scan.word ['u', 'l', 'l'] rest)
    | some 't' :: rest, _ => do return (.bool true, ← Json.Scan.word ['r', 'u', 'e'] rest)
    | some 'f' :: rest, _ => do return (.bool false, ← Json.Scan.word ['a', 'l', 's', 'e'] rest)
    | some '-' :: rest, _ => Json.Scan.number true rest
    | some '"' :: rest, _ => do
      let (s, rest) ← Json.Scan.text bound rest
      return (.string s, rest)
    | some '[' :: _, 0 | some '\x7b' :: _, 0 => .error .syntactic
    | some '[' :: rest, depth + 1 => do
      let (items, rest) ← anyElements bound depth true rest
      return (.array items, rest)
    | some '\x7b' :: rest, depth + 1 => do
      let (members, rest) ← anyMembers bound depth true rest
      return (.object members, rest)
    | s :: rest, _ =>
      if Json.Scan.isDigit s then Json.Scan.number false (s :: rest) else .error .syntactic

def anyElements : Nat → Nat → Bool → List Symbol → Attempt (Parsed (List Json))
  | 0, _, _, _ => .error .early
  | bound + 1, depth, first, input => do
    match ← nextElement first input with
    | none => return ([], ← close ']' input)
    | some start =>
      let (x, rest) ← any bound depth start
      let (xs, rest) ← anyElements bound depth false rest
      return (x :: xs, rest)

def anyMembers : Nat → Nat → Bool → List Symbol → Attempt (Parsed (List (String × Json)))
  | 0, _, _, _ => .error .early
  | bound + 1, depth, first, input => do
    match ← nextMember first input with
    | none => return ([], ← close '\x7d' input)
    | some start =>
      let (key, rest) ← Json.Scan.text bound start
      let (x, rest) ← any bound depth (← colon rest)
      let (xs, rest) ← anyMembers bound depth false rest
      return ((key, x) :: xs, rest)

end

mutual

/-- What is left behind a value of which only the form counts. -/
def skip : Nat → List Symbol → Attempt (List Symbol)
  | 0, _ => .error .early
  | bound + 1, input =>
    match Json.Scan.blanks input with
    | [] => .error .early
    | some 'n' :: rest => Json.Scan.word ['u', 'l', 'l'] rest
    | some 't' :: rest => Json.Scan.word ['r', 'u', 'e'] rest
    | some 'f' :: rest => Json.Scan.word ['a', 'l', 's', 'e'] rest
    | some '-' :: rest => Json.Scan.skipNumber rest
    | some '"' :: rest => Json.Scan.skipText bound rest
    | some '[' :: rest => skipElements bound true rest
    | some '\x7b' :: rest => skipMembers bound true rest
    | s :: rest =>
      if Json.Scan.isDigit s then Json.Scan.skipNumber (s :: rest) else .error .syntactic

/-- What is left behind the elements of an array. -/
def skipElements : Nat → Bool → List Symbol → Attempt (List Symbol)
  | 0, _, _ => .error .early
  | bound + 1, first, input => do
    match ← nextElement first input with
    | none => close ']' input
    | some start => skipElements bound false (← skip bound start)

/-- What is left behind the members of an object. -/
def skipMembers : Nat → Bool → List Symbol → Attempt (List Symbol)
  | 0, _, _ => .error .early
  | bound + 1, first, input => do
    match ← nextMember first input with
    | none => close '\x7d' input
    | some start =>
      let rest ← Json.Scan.skipText bound start
      skipMembers bound false (← skip bound (← colon rest))

end

end Reader

/-! ## Records -/

/-- A field of a record: its name, whether it must be given, and how its value is read into a
record. -/
structure Field (α : Type) where
  /-- The key of the field. -/
  name : String
  /-- Whether a record without the field is refused. -/
  required : Bool
  /-- Reads the value of the field into a record. -/
  read : α → Reader α

namespace Reader

/-- Whether every field that must be given has been read. -/
def complete {α : Type} (fields : List (Field α)) (seen : List String) : Bool :=
  fields.all fun field ↦ !field.required || seen.contains field.name

/-- The members of a record, each known one at most once. -/
def recordMembers {α : Type} (fields : List (Field α)) (depth : Nat) :
    Nat → Bool → List String → α → List Symbol → Attempt (Parsed α)
  | 0, _, _, _, _ => .error .early
  | bound + 1, first, seen, x, input => do
    match ← nextMember first input with
    | none => if complete fields seen then return (x, ← close '\x7d' input) else throw .shape
    | some start =>
      let (key, rest) ← Json.Scan.text bound start
      match fields.find? fun field ↦ field.name = key with
      | some field =>
        if seen.contains key then throw .shape
        let (x, rest) ← field.read x bound depth (← colon rest)
        recordMembers fields depth bound false (key :: seen) x rest
      | none =>
        let rest ← skip bound (← colon rest)
        recordMembers fields depth bound false seen x rest

/-- The fields of a record that is written as an array, in the order of their declaration. Fields
at the end may be missing unless they must be given. -/
def recordElements {α : Type} (bound depth : Nat) :
    List (Field α) → Bool → α → List Symbol → Attempt (Parsed α)
  | [], _, x, input => do return (x, ← close ']' input)
  | field :: fields, first, x, input => do
    match ← nextElement first input with
    | none =>
      if (field :: fields).any (·.required) then throw .shape else return (x, ← close ']' input)
    | some start =>
      let (x, rest) ← field.read x bound depth start
      recordElements bound depth fields false x rest

/-- A record, written as an object or as an array. Fields that are not given stay as they are in
`blank`. -/
def record {α : Type} (blank : α) (fields : List (Field α)) : Reader α := fun bound depth input ↦
  match Json.Scan.blanks input, depth with
  | some '[' :: _, 0 | some '\x7b' :: _, 0 => .error .syntactic
  | some '[' :: rest, depth + 1 => recordElements bound depth fields true blank rest
  | some '\x7b' :: rest, depth + 1 => recordMembers fields depth bound true [] blank rest
  | other, _ => .error (mismatch bound other)

/-! ## Documents -/

/-- How deep containers may nest. -/
def depthLimit : Nat := 127

/-- Reads a whole text, which holds one value and nothing but blanks around it. Every symbol opens
at most one container with one element, so twice its length bounds the way through a text. -/
def document {α : Type} (reader : Reader α) (input : List Symbol) : Attempt α := do
  let (x, rest) ← reader (2 * input.length + 2) depthLimit input
  if (Json.Scan.blanks rest).isEmpty then return x else throw .syntactic

end Reader

/-- Reads a JSON text as a tree. -/
def Json.ofString (text : String) : Attempt Json := Reader.any.document (Symbol.ofString text)

end BookmarkGraph
