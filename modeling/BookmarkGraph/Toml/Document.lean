import BookmarkGraph.Toml.Number
import BookmarkGraph.Toml.Tree

/-!
# Reading configuration documents

A document is read line by line into statements, each of which is carried out on the table that the
statements in front have built. The first line that cannot be read or carried out makes the whole
document fail, at the place where reading stopped or where the statement begins.

## Contents

* `Toml.Scan.key`: a dotted key;
* `Toml.Scan.value`: a value, however deep;
* `Toml.Statement` and `Toml.Scan.statement`: the lines of a document;
* `Toml.Draft.obey`: what statements do;
* `Toml.ofString`: the table that a document describes.
-/

namespace BookmarkGraph

namespace Toml

/-- What a line of a document says. -/
inductive Statement where
  /-- A value under a dotted key of the table opened last. -/
  | entry (path : List PlacedKey) (key : PlacedKey) (value : Toml)
  /-- The header of a table. -/
  | table (place : Place) (path : List PlacedKey) (key : PlacedKey)
  /-- The header of a further row of a list of tables. -/
  | row (place : Place) (path : List PlacedKey) (key : PlacedKey)
deriving Repr, Inhabited

namespace Scan

/-! ## Blanks and comments -/

/-- What is left behind the blanks of a line. -/
def blanks (input : Place) : Place := input.dropWhile isBlank

/-- What is left behind a line that ends here, possibly with a comment. -/
def lineEnd (input : Place) : Except Stop Place :=
  let rest :=
    match blanks input with
    | '#' :: rest => rest.dropWhile isInLine
    | rest => rest
  match rest with
  | [] => .ok []
  | '\n' :: rest => .ok rest
  | '\r' :: '\n' :: rest => .ok rest
  | rest => miss rest

/-- What is left behind blanks, line breaks and comments. The flag tells that a comment has begun,
which a line break has to end. -/
def gap : Bool → Place → Except Stop Place
  | comment, [] => if comment then miss [] else .ok []
  | _, '\n' :: rest => gap false rest
  | _, '\r' :: '\n' :: rest => gap false rest
  | comment, c :: rest =>
    if comment then if isInLine c then gap true rest else miss rest
    else if isBlank c then gap false rest
    else if c = '#' then gap true rest
    else if c = '\r' then miss rest
    else .ok (c :: rest)

/-! ## Keys -/

/-- Characters of keys without quotes. -/
def isBare (c : Char) : Bool := c.isAlphanum || c = '-' || c = '_'

def simpleKey : Scanner PlacedKey := fun input ↦ do
  let (name, rest) ←
    match input with
    | '"' :: rest => basic rest
    | '\'' :: rest => literal rest
    | _ =>
      let name := input.takeWhile isBare
      if name.isEmpty then miss input else .ok (name, input.drop name.length)
  return (⟨String.ofList name, input⟩, rest)

/-- One part of a key with the blanks around it. -/
def keyPart : Scanner PlacedKey := fun input ↦ do
  let (part, rest) ← simpleKey (blanks input)
  return (part, blanks rest)

/-- How many parts a key or how many containers around each other are too many. -/
def depthLimit : Nat := 80

/-- A key: the path to a table and the key within it. -/
def key : Scanner (List PlacedKey × PlacedKey) := fun input ↦ do
  let (parts, rest) ← someWith keyPart '.' (input.length + 1) input
  match parts.getLast? with
  | some last =>
    if parts.length < depthLimit then return ((parts.dropLast, last), rest) else miss input
  | none => miss input

/-! ## Values -/

/-- What is left behind a comma, if there is one. -/
def skipComma : Place → Place
  | ',' :: rest => rest
  | input => input

/-- An element of an array with the gaps around it. -/
def element (item : Scanner Toml) : Scanner Toml := fun input ↦ do
  let (x, rest) ← item (← gap false input)
  return (x, ← gap false rest)

/-- The elements of an array, read from behind its opening bracket. A comma may follow the last
one. -/
def elements (item : Scanner Toml) (bound : Nat) : Scanner (List Toml) := fun input ↦ do
  let (xs, rest) ← manyWith (element item) ',' bound input
  let rest := if xs.isEmpty then rest else skipComma rest
  return (xs, ← expect [']'] (← gap false rest))

/-- A key with its value. The key decides that it is one. -/
def pair (item : Scanner Toml) : Scanner ((List PlacedKey × PlacedKey) × Toml) := fun input ↦ do
  let (k, rest) ← key input
  commit do
    let (x, rest) ← item (blanks (← expect ['='] rest))
    return ((k, x), rest)

/-- A member of a table between braces with the blanks behind it. -/
def member (item : Scanner Toml) : Scanner ((List PlacedKey × PlacedKey) × Toml) := fun input ↦ do
  let (read, rest) ← pair item input
  return (read, blanks rest)

/-- The members of a table between braces, read from behind the opening one. No comma may follow the
last one. -/
def members (item : Scanner Toml) (bound : Nat) : Scanner Entries := fun input ↦ do
  let (pairs, rest) ← manyWith (member item) ',' bound input
  match pairs.foldlM (fun entries ((path, k), x) ↦ assign k x path entries) [] with
  | some entries => return (entries, ← expect ['\x7d'] (blanks rest))
  | none => miss input

/-- A part of the input as it is written, up to what is left of it. -/
def written (input rest : Place) : String :=
  String.ofList (input.take (input.length - rest.length))

/-- A moment, a float or a whole number. -/
def numeric : Scanner Toml :=
  let moments : Scanner Toml := fun input ↦ do
    let rest ← moment input
    return (.moment input (written input rest), rest)
  let floats (form : Place → Except Stop Place) : Scanner Toml := fun input ↦ do
    let rest ← form input
    return (.float input (written input rest), rest)
  let integers : Scanner Toml := fun input ↦ do
    let (n, rest) ← integer input
    return (.integer input n, rest)
  orElse moments (orElse (floats decimalFloat) (orElse (floats namedFloat) integers))

/-- A value; the first argument says how many containers may still be around each other. -/
def value : Nat → Scanner Toml := fun depth input ↦
  match input with
  | '"' :: _ | '\'' :: _ => do
    let (s, rest) ← text input
    return (.text input s, rest)
  | 't' :: 'r' :: 'u' :: 'e' :: rest => .ok (.boolean input true, rest)
  | 'f' :: 'a' :: 'l' :: 's' :: 'e' :: rest => .ok (.boolean input false, rest)
  | 't' :: _ | 'f' :: _ => fault input
  | '[' :: start =>
    match depth with
    | 0 => fault input
    | depth + 1 => do
      let (xs, rest) ← commit (elements (value depth) input.length start)
      return (.array input xs, rest)
  | '\x7b' :: start =>
    match depth with
    | 0 => fault input
    | depth + 1 => do
      let (entries, rest) ← commit (members (value depth) input.length start)
      return (.table (.inline input) entries, rest)
  | _ => numeric input

/-! ## Lines -/

/-- The header of a table, with as many brackets as `brackets` says. -/
def header (brackets : Nat) (make : List PlacedKey → PlacedKey → Statement) (input : Place) :
    Except Stop (Option Statement × Place) := do
  let ((path, k), rest) ← key (input.drop brackets)
  return (some (make path k), ← lineEnd (← expect (List.replicate brackets ']') rest))

/-- The first statement of a document that is not at its end. A line may be empty. -/
def statement : Scanner (Option Statement) := fun input ↦
  match input with
  | ['['] => miss input
  | '[' :: '[' :: _ => header 2 (.row input) input
  | '[' :: _ => header 1 (.table input) input
  | '#' :: _ | '\n' :: _ | '\r' :: _ => do return (none, ← lineEnd input)
  | _ => do
    let (((path, k), x), rest) ← pair (value (depthLimit - 1)) input
    return (some (.entry path k x), ← lineEnd rest)

end Scan

/-! ## Documents -/

/-- A document under construction: the whole of it, and the path of the table opened last. -/
structure Draft where
  /-- The entries of the document. -/
  root : Entries
  /-- The path of the table opened last. -/
  current : List PlacedKey
deriving Repr

/-- Carries out a statement. -/
def Draft.obey (d : Draft) : Statement → Option Draft
  | .entry path k x => do return { d with root := ← within (assign k x path) d.current d.root }
  | .table place path k => do return ⟨← openTable place path k d.root, path ++ [k]⟩
  | .row place path k => do return ⟨← openRow place path k d.root, path ++ [k]⟩

/-- Carries out a statement that begins at a place, if there is one. -/
def Draft.obeyAt (d : Draft) (start : Place) : Option Statement → Except Place Draft
  | none => .ok d
  | some s =>
    match d.obey s with
    | some d => .ok d
    | none => .error start

/-- Reads the statements of a document and carries out each. Every one takes a character, so a bound
above the length of the document is not reached. -/
def Draft.extend (d : Draft) : Nat → Place → Except Place Draft
  | 0, input => .error input
  | bound + 1, input =>
    match Scan.blanks input with
    | [] => .ok d
    | start =>
      match Scan.statement start with
      | .error stop => .error stop.place
      | .ok (s, rest) => do (← d.obeyAt start s).extend bound rest

/-- The document without a leading byte order mark. -/
def skipMark : Place → Place
  | '\uFEFF' :: rest => rest
  | input => input

/-- The table that a document describes, or the place where it goes wrong. -/
def ofString (document : String) : Except Place Entries := do
  let input := skipMark document.toList
  return (← Draft.extend ⟨[], []⟩ (input.length + 1) input).root

end Toml

end BookmarkGraph
