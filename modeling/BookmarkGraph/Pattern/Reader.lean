import BookmarkGraph.Pattern.Brackets
import BookmarkGraph.Text.Letter

/-!
# Reading patterns

A pattern is read from the left. Bars separate what is to choose from, a question mark, an asterisk
or a plus sign repeats what stands in front of it, and parentheses enclose groups, which may have a
name or switches of their own.

## Contents

* `Pattern.settings?`: the switches that a group sets;
* `Pattern.opening?`: what stands behind an opening parenthesis;
* `Pattern.ofText?`: a pattern from its text;
* `Pattern.isValid`: texts of patterns that can be used.
-/

namespace BookmarkGraph

/-- The switch that a letter stands for. -/
def Switch.ofChar? : Char → Option Switch
  | 'i' => some .caseless
  | 'm' => some .multiline
  | 's' => some .dotAll
  | 'U' => some .reluctant
  | 'u' => some .unicode
  | 'R' => some .carriageReturns
  | 'x' => some .spaced
  | _ => none

/-- The position of the switch for white space, if any of the settings gives one. -/
def Settings.spaced? (settings : Settings) : Option Bool := settings.lookup .spaced

namespace Pattern

/-! ## Groups -/

/-- Reads switches and the colon or parenthesis behind them. Those behind a hyphen are switched off,
of which there is one at most and not at the end. No switch is set twice. -/
def settings? (negated dangling : Bool) (settings : Settings) :
    List Char → Option (Settings × Char × List Char)
  | [] => none
  | c :: rest =>
    if c = ':' || c = ')' then if dangling then none else some (settings, c, rest)
    else if c = '-' then if negated then none else settings? true true settings rest
    else do
      let switch ← Switch.ofChar? c
      if settings.any (·.1 = switch) then none
      else settings? negated false (settings ++ [(switch, !negated)]) rest

/-- Characters of the name of a group, from the second on. -/
def isNameChar (c : Char) : Bool :=
  c = '_' || c = '.' || c = '[' || c = ']' || Letter.isAlphanumeric c

/-- Reads the name of a group up to behind the angle bracket that closes it. -/
def name? (text : List Char) : Option (List Char × List Char) :=
  match text.takeWhile (· ≠ '>'), text.dropWhile (· ≠ '>') with
  | c :: more, _ :: rest =>
    if (c = '_' || Letter.isAlphabetic c) && more.all isNameChar then some (c :: more, rest)
    else none
  | _, _ => none

/-- What an opening parenthesis begins. -/
inductive Opening where
  /-- A group, which may have a name. -/
  | group (name : Option (List Char)) (settings : Settings)
  /-- Switches without a group. -/
  | switches (settings : Settings)
deriving DecidableEq, Repr

/-- Reads what stands behind an opening parenthesis, up to where the group begins. -/
def opening? : List Char → Option (Opening × List Char)
  | '?' :: 'P' :: '<' :: rest | '?' :: '<' :: rest => do
    let (name, rest) ← name? rest
    return (.group (some name) [], rest)
  | '?' :: rest => do
    let (settings, final, rest) ← settings? false false [] rest
    if final = ':' then return (.group none settings, rest)
    else if settings.isEmpty then none
    else return (.switches settings, rest)
  | rest => some (.group none [], rest)

/-! ## Whole patterns -/

/-- How far a pattern has been read. -/
structure Reading where
  /-- Whether white space does not count. -/
  spaced : Bool
  /-- The names of groups, which must differ. -/
  names : List (List Char)
  /-- What is left. -/
  rest : List Char

/-- Reads one character, escape or set. -/
def primary? (spaced : Bool) : List Char → Option (Pattern × List Char)
  | [] => none
  | '[' :: rest => (CharSet.ofBrackets? spaced rest).map fun (found, rest) ↦ (.set found, rest)
  | '\\' :: rest => (escape spaced rest).map fun (a, rest) ↦ (.atom a, rest)
  | '\x7b' :: _ => none
  | '.' :: rest => some (.atom .anything, rest)
  | '^' :: rest | '$' :: rest => some (.atom .boundary, rest)
  | c :: rest => some (.atom (.glyph ⟨c.toNat, false⟩), rest)

/-- Repeats the pattern that was read last, which must be one. -/
def repeatLast? : List Pattern → Option (List Pattern)
  | [] | .switches _ :: _ => none
  | item :: items => some (.repeated item :: items)

/-- What is left behind the mark that makes a repetition as short or as long as possible. -/
def dropMark : List Char → List Char
  | '?' :: rest => rest
  | rest => rest

/-- The pattern that was read: the last of some choices, both in reverse order. -/
def finish (choices items : List Pattern) : Pattern :=
  .ofChoices (.ofItems items.reverse :: choices).reverse

/-- Reads up to the end of the text or to a closing parenthesis. The choices and the items of the
last of them are kept in reverse order. -/
def bodyFrom : Nat → List Pattern → List Pattern → Reading → Option (Pattern × Reading)
  | 0, _, _, _ => none
  | fuel + 1, choices, items, reading =>
    match skip reading.spaced reading.rest with
    | [] => some (finish choices items, { reading with rest := [] })
    | c :: rest =>
      if c = ')' then some (finish choices items, { reading with rest := c :: rest })
      else if c = '|' then
        bodyFrom fuel (.ofItems items.reverse :: choices) [] { reading with rest }
      else if c = '?' || c = '*' || c = '+' then do
        bodyFrom fuel choices (← repeatLast? items) { reading with rest := dropMark rest }
      else if c = '(' then do
        let (opening, rest) ← opening? (skip reading.spaced rest)
        match opening with
        | .switches settings =>
          let spaced := settings.spaced?.getD reading.spaced
          bodyFrom fuel choices (.switches settings :: items) { reading with spaced, rest }
        | .group name settings =>
          if name.any reading.names.contains then none
          else
            let spaced := settings.spaced?.getD reading.spaced
            let names := name.toList ++ reading.names
            let (body, inner) ← bodyFrom fuel [] [] ⟨spaced, names, rest⟩
            match inner.rest with
            | ')' :: rest =>
              bodyFrom fuel choices (.group settings body :: items)
                ⟨reading.spaced, inner.names, rest⟩
            | _ => none
      else do
        let (item, rest) ← primary? reading.spaced (c :: rest)
        bodyFrom fuel choices (item :: items) { reading with rest }

/-- The pattern that a text is. Every step takes at least one character, so that the length of the
text bounds their number. -/
def ofText? (text : List Char) : Option Pattern := do
  let (pattern, reading) ← bodyFrom (text.length + 1) [] [] ⟨false, [], text⟩
  if reading.rest.isEmpty then return pattern else none

def isValid (text : List Char) : Bool := (ofText? text).any isUsable

end Pattern

end BookmarkGraph
