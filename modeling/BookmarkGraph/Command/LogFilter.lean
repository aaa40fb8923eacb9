import BookmarkGraph.Pattern.Reader

/-!
# Filters of log messages

A filter is a list of directives with commas between them. A directive names a level, or a target
with a level behind an equals sign; a span in brackets may stand behind the target or in its place.
A span can have one condition in braces: the name of a field, and a value or pattern for it behind
an equals sign. Only whether a filter can be used matters here.

White space around a directive does not count when its parts are found, but it does when they are
taken: parts are taken from the directive as it is written, at the places that they have in the
directive without white space around it. White space in front thus moves all parts towards it, and
if a part then ends inside a character the filter is `misaligned`.

## Contents

* `LogFilter.isLevel` and `LogFilter.isCondition`: the parts of directives that can be malformed;
* `LogFilter.slice?`: parts of a text by their places in bytes;
* `LogFilter.Place` and `LogFilter.step`: how a directive is read;
* `LogFilter.check`: whether a filter can be used.
-/

namespace BookmarkGraph.LogFilter

/-- Why a filter cannot be used. -/
inductive Fault where
  /-- A directive is not well-formed. -/
  | malformed
  /-- A part of a directive ends inside a character. -/
  | misaligned
deriving DecidableEq, Repr

/-! ## Parts of directives -/

/-- The names of the levels. -/
def levels : List String := ["error", "warn", "info", "debug", "trace", "off"]

/-- Whether a text tells a level: by its name, capital letters being allowed, or by its number. A
missing level stands for all messages. -/
def isLevel (text : List Char) : Bool :=
  text.isEmpty || levels.contains (String.ofList (text.map Char.toLower))
    || (Numeral.unsigned64? (String.ofList text)).any fun n ↦ n.toNat ≤ 5

/-- Characters that a target may begin with. -/
def isInitial (c : Char) : Bool := c = '-' || c = ':' || c = '_' || Letter.isAlphanumeric c

/-- Whether a text tells a condition on a field. Behind the first equals sign stands a number or a
pattern, and what is behind the second does not count. -/
def isCondition (text : List Char) : Bool :=
  match Fields.split '=' text with
  | _ :: value :: _ => Numeral.isNumber value || Pattern.isValid value
  | _ => !text.isEmpty

/-! ## Places -/

/-- What is left behind some bytes, if they end between two characters. -/
def dropBytes? : Nat → List Char → Option (List Char)
  | 0, text => some text
  | _ + 1, [] => none
  | count + 1, c :: rest =>
    if c.utf8Size ≤ count + 1 then dropBytes? (count + 1 - c.utf8Size) rest else none

/-- The characters of the first bytes, if these end between two characters. -/
def takeBytes? : Nat → List Char → Option (List Char)
  | 0, _ => some []
  | _ + 1, [] => none
  | count + 1, c :: rest =>
    if c.utf8Size ≤ count + 1 then
      (takeBytes? (count + 1 - c.utf8Size) rest).map fun taken ↦ c :: taken
    else none

/-- The part of a text between two places, which are given in bytes. -/
def slice? (text : List Char) (first last : Nat) : Option (List Char) :=
  (dropBytes? first text).bind (takeBytes? (last - first))

def part (written : List Char) (first last : Nat) : Except Fault (List Char) :=
  (slice? written first last).elim (.error .misaligned) .ok

/-! ## Directives -/

/-- How far a directive has been read. What is being read is given by where it begins. -/
inductive Place where
  /-- Nothing was read. -/
  | front
  /-- A target or a level without a target. -/
  | target
  /-- A span. -/
  | span (first : Nat)
  /-- A condition of a span. -/
  | condition (first : Nat)
  /-- A condition was read. -/
  | conditionEnd
  /-- A span was read. -/
  | spanEnd
  /-- A level behind an equals sign. -/
  | level (first : Nat)
deriving DecidableEq, Repr

/-- Reads a character at a place. Each part that ends there is taken from the directive as it is
written. -/
def step (written : List Char) (position : Nat) (c : Char) : Place → Except Fault Place
  | .front =>
    if c = '[' then .ok (.span (position + 1))
    else if isInitial c then .ok .target
    else .error .malformed
  | .target => do
    if c = '=' then
      let _ ← part written 0 position
      return .level (position + 1)
    else if c = '[' then
      let _ ← part written 0 position
      return .span (position + 1)
    else return .target
  | .span first => do
    if c = ']' then
      let _ ← part written first position
      return .spanEnd
    else if c = '\x7b' then
      let _ ← part written first position
      return .condition (position + 1)
    else return .span first
  | .condition first => do
    if c = '\x7d' then
      if isCondition (← part written first position) then return .conditionEnd
      else throw .malformed
    else return .condition first
  | .conditionEnd => if c = ']' then .ok .spanEnd else .error .malformed
  | .spanEnd => if c = '=' then .ok (.level (position + 1)) else .error .malformed
  | .level first => .ok (.level first)

/-- Reads characters from a position on. -/
def scan (written : List Char) (position : Nat) (place : Place) :
    List Char → Except Fault Place
  | [] => .ok place
  | c :: rest => do
    scan written (position + c.utf8Size) (← step written position c place) rest

def finish (written : List Char) : Place → Except Fault Unit
  | .target | .spanEnd => .ok ()
  | .level first =>
    match dropBytes? first written with
    | none => .error .misaligned
    | some text => if isLevel text then .ok () else .error .malformed
  | .front | .span _ | .condition _ | .conditionEnd => .error .malformed

/-- Whether a directive can be used. -/
def directive (written : List Char) : Except Fault Unit := do
  finish written (← scan written 0 .front (Fields.trim written))

/-- Whether a filter can be used. Empty directives do not count, and of several faults the first is
reported. -/
def check (filter : String) : Except Fault Unit :=
  ((Fields.split ',' filter.toList).filter fun part ↦ !part.isEmpty).forM directive

end BookmarkGraph.LogFilter
