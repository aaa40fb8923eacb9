import BookmarkGraph.Text.Place

/-!
# Configuration documents as trees

A document is a table, built line by line. A table header opens a table, a doubled one opens a
further row of a list of tables, and a line with a key and a value enters the value into the table
opened last. Headers and dotted keys may pass through tables that are not there yet; a table
remembers how it came about, because that decides which lines may still extend it.

Keys and values know their places in the document, so that a value of the wrong kind can be pointed
at. A table that was only passed through has no place of its own.

## Contents

* `PlacedKey`, `TableOrigin` and `Toml`: keys and values;
* `Toml.place?`: the place of a value;
* `Toml.assign`: enters a value under a dotted key;
* `Toml.openTable`, `Toml.openRow`: what headers do.
-/

namespace BookmarkGraph

/-- A key, or a part of a dotted one. -/
structure PlacedKey where
  /-- What the key says. -/
  name : String
  /-- Where it begins. -/
  place : Place
deriving Repr, Inhabited

/-- How a table came about. -/
inductive TableOrigin where
  /-- Written between braces. -/
  | inline (place : Place)
  /-- Opened by a header of its own. -/
  | header (place : Place)
  /-- Passed through by the header of another table. -/
  | implied
  /-- Passed through by a dotted key. -/
  | dotted
deriving Repr, Inhabited

/-- Where the writing of a table begins that was not only passed through. -/
def TableOrigin.place? : TableOrigin → Option Place
  | inline place | header place => some place
  | implied | dotted => none

/-- A value of a document. -/
inductive Toml where
  /-- A text. -/
  | text (place : Place) (value : String)
  /-- A whole number. -/
  | integer (place : Place) (value : Int)
  /-- A float, as it is written. -/
  | float (place : Place) (written : String)
  /-- A truth value. -/
  | boolean (place : Place) (value : Bool)
  /-- A date or a time, as it is written. -/
  | moment (place : Place) (written : String)
  /-- A list of values. -/
  | array (place : Place) (items : List Toml)
  /-- A table. -/
  | table (origin : TableOrigin) (entries : List (PlacedKey × Toml))
  /-- Tables under doubled headers with the places of the headers, the one opened last at the
  end. -/
  | tables (rows : List (Place × List (PlacedKey × Toml)))
deriving Repr, Inhabited

namespace Toml

/-- The keys of a table with their values, in the order of their entry. -/
abbrev Entries := List (PlacedKey × Toml)

/-- Where the writing of a value begins. -/
def place? : Toml → Option Place
  | text place _ | integer place _ | float place _ | boolean place _ | moment place _
  | array place _ => some place
  | table origin _ => origin.place?
  | tables rows => rows.head?.map (·.1)

/-- Changes the value under a key, or adds one, unless `f` refuses. -/
def alter (key : PlacedKey) (f : Option Toml → Option Toml) : Entries → Option Entries
  | [] => do return [(key, ← f none)]
  | (k, x) :: rest =>
    if k.name = key.name then do return (k, ← f (some x)) :: rest
    else do return (k, x) :: (← alter key f rest)

/-- Changes the row opened last. -/
def onLast (f : Entries → Option Entries) : List (Place × Entries) → Option (List (Place × Entries))
  | [] => none
  | [(place, row)] => do return [(place, ← f row)]
  | row :: rest => do return row :: (← onLast f rest)

/-- Enters a value under a key that is not in use, at the end of a path of dotted keys. Such a path
may pass through tables that other paths or headers have passed through, but it ends in one that
dotted keys have made. -/
def assign (key : PlacedKey) (value : Toml) : List PlacedKey → Entries → Option Entries
  | [], entries =>
    alter key (fun
      | none => some value
      | some _ => none) entries
  | k :: path, entries =>
    alter k (fun
      | none => do return .table .dotted (← assign key value path [])
      | some (.table .dotted inner) => do return .table .dotted (← assign key value path inner)
      | some (.table .implied inner) =>
        if path.isEmpty then none
        else do return .table .implied (← assign key value path inner)
      | some (.tables rows) =>
        if path.isEmpty then none
        else do return .tables (← onLast (assign key value path) rows)
      | some _ => none) entries

/-- Changes the table at the end of a path of headers. -/
def within (f : Entries → Option Entries) : List PlacedKey → Entries → Option Entries
  | [], entries => f entries
  | k :: path, entries =>
    alter k (fun
      | none => do return .table .implied (← within f path [])
      | some (.table (.inline _) _) => none
      | some (.table origin inner) => do return .table origin (← within f path inner)
      | some (.tables rows) => do return .tables (← onLast (within f path) rows)
      | some _ => none) entries

/-- Opens a table. A table that was only passed through so far becomes an open one and the last of
its surroundings; every other use of the name is a repetition. -/
def openTable (place : Place) (path : List PlacedKey) (key : PlacedKey) :
    Entries → Option Entries :=
  within (fun entries ↦
    match entries.find? (·.1.name = key.name) with
    | none => some (entries ++ [(key, .table (.header place) [])])
    | some (_, .table .implied inner) =>
      some (entries.filter (·.1.name ≠ key.name) ++ [(key, .table (.header place) inner)])
    | some _ => none) path

/-- Opens a further row of a list of tables. -/
def openRow (place : Place) (path : List PlacedKey) (key : PlacedKey) : Entries → Option Entries :=
  within (alter key fun
    | none => some (.tables [(place, [])])
    | some (.tables rows) => some (.tables (rows ++ [(place, [])]))
    | some _ => none) path

end Toml

end BookmarkGraph
