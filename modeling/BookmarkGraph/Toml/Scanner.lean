import BookmarkGraph.Text.Place

/-!
# Scanners of configuration documents

A scanner reads something from the front of a document and leaves the rest. If it cannot, it says
where it stopped and whether that is final: a scanner that *misses* has not found what it looks for,
and something else may stand there instead; after a *fault* the document is beyond repair.

Whether a scanner misses or faults decides more than the choice between alternatives. An item of a
list that misses is taken for the end of the list, and the reader goes on in front of the separator
that announced it; so the place of a mistake is often where the list ends.

## Contents

* `Toml.Stop` and `Toml.Scanner`: what scanners answer;
* `Scan.commit`, `Scan.optional` and `Scan.orElse`: what becomes of misses;
* `Scan.someWith` and `Scan.manyWith`: lists with separators.
-/

namespace BookmarkGraph

namespace Toml

/-- Where a scanner stops. -/
structure Stop where
  /-- The place that it has reached. -/
  place : Place
  /-- Whether nothing else may be tried instead. -/
  final : Bool
deriving DecidableEq, Repr

/-- Reads something from the front of a document and leaves the rest. -/
abbrev Scanner (α : Type) := Place → Except Stop (α × Place)

namespace Scan

variable {α : Type}

/-- What is looked for is not found. -/
def miss (place : Place) : Except Stop α := .error ⟨place, false⟩

/-- The document is beyond repair. -/
def fault (place : Place) : Except Stop α := .error ⟨place, true⟩

/-- Turns a miss into a fault. -/
def commit (read : Except Stop α) : Except Stop α :=
  match read with
  | .ok x => .ok x
  | .error stop => fault stop.place

def optional (scan : Scanner α) : Scanner (Option α) := fun input ↦
  match scan input with
  | .ok (x, rest) => .ok (some x, rest)
  | .error stop => if stop.final then .error stop else .ok (none, input)

/-- One of two things, the second being tried where the first misses. -/
def orElse (first second : Scanner α) : Scanner α := fun input ↦
  match first input with
  | .ok read => .ok read
  | .error stop => if stop.final then .error stop else second input

/-- Puts something in front of what was read behind it. -/
def push (x : α) (read : Except Stop (List α × Place)) : Except Stop (List α × Place) :=
  read.map fun (xs, rest) ↦ (x :: xs, rest)

/-- What is left behind the given characters. -/
def expect (characters : List Char) (input : Place) : Except Stop Place :=
  if characters.isPrefixOf input then .ok (input.drop characters.length) else miss input

/-- The place one byte behind the beginning of a character. A place within a character is that of
the character. -/
def behindByte (c : Char) (rest : Place) : Place := if c.toNat < 0x80 then rest else c :: rest

/-- Items with separators between them, at least one and at most as many as the bound says. A
separator that no item follows is left. -/
def someWith (item : Scanner α) (separator : Char) : Nat → Scanner (List α)
  | 0, input => miss input
  | bound + 1, input => do
    let (x, rest) ← item input
    let next : Scanner (List α) := fun rest ↦ do
      someWith item separator bound (← expect [separator] rest)
    let (xs, rest) ← optional next rest
    return (x :: xs.getD [], rest)

/-- Items with separators between them, possibly none. -/
def manyWith (item : Scanner α) (separator : Char) (bound : Nat) : Scanner (List α) :=
    fun input ↦ do
  let (xs, rest) ← optional (someWith item separator bound) input
  return (xs.getD [], rest)

end Scan

end Toml

end BookmarkGraph
