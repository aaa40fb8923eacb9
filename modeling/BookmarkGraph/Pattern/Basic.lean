/-!
# Patterns of texts

A pattern describes texts. Characters stand for themselves, sets in brackets for any of their
members, and operators join, choose and repeat what other patterns stand for. Here it only matters
whether a pattern can be used, so that its parts are kept as far as that hangs on them.

A pattern can be used if it is not nested too deeply and if everything in it has a meaning without
tables of Unicode properties. Characters are read in one of two ways, between which a pattern
switches. As characters of Unicode, neither their cases nor kinds such as the digits of all scripts
are known. As bytes, nothing may stand for a byte beyond ASCII, because matching goes through texts
in UTF-8 and must not stop inside a character.

## Contents

* `Pattern` and `CharSet`: patterns and sets of characters;
* `Pattern.depth`: how deeply a pattern is nested;
* `Mode` and `Pattern.modeAfter?`: the two ways of reading, and what has a meaning in them;
* `Pattern.isUsable`: patterns that can be used.
-/

namespace BookmarkGraph

/-! ## Parts of patterns -/

/-- What a pattern can switch on and off. -/
inductive Switch where
  /-- Letters stand for both their cases. -/
  | caseless
  /-- The ends of a line count as ends of the text. -/
  | multiline
  /-- The dot stands for the end of a line, too. -/
  | dotAll
  /-- Repetitions are as short as possible unless marked. -/
  | reluctant
  /-- Characters are those of Unicode, not bytes. -/
  | unicode
  /-- A line may end with a carriage return in front of its line feed. -/
  | carriageReturns
  /-- White space and comments in the pattern do not count. -/
  | spaced
deriving DecidableEq, Repr

/-- Switches in the order in which they are set, each with its position. -/
abbrev Settings := List (Switch × Bool)

/-- A single character of a pattern. -/
structure Glyph where
  /-- The code point. -/
  code : Nat
  /-- Whether it is written as a byte, with two hexadecimal digits. -/
  isByte : Bool
deriving DecidableEq, Repr

/-- What a single character of a pattern, or an escape, stands for. -/
inductive Atom where
  /-- A character. -/
  | glyph (glyph : Glyph)
  /-- Any character. -/
  | anything
  /-- Digits, white space or word characters, or all that are not. -/
  | kind (negated : Bool)
  /-- The start or the end of the text or of a line. -/
  | boundary
  /-- The start or the end of a word, or a place that is neither. -/
  | wordBoundary
deriving DecidableEq, Repr

/-- A set of characters. -/
inductive CharSet where
  /-- One character. -/
  | glyph (glyph : Glyph)
  /-- All characters from one to another. -/
  | range (first last : Glyph)
  /-- Digits, white space or word characters, or all that are not. -/
  | kind (negated : Bool)
  /-- A class of ASCII characters, or all that are not in it. -/
  | named (negated : Bool)
  /-- A set in brackets. -/
  | bracketed (negated : Bool) (members : CharSet)
  /-- The members of several sets. -/
  | union (sets : List CharSet)
  /-- The intersection or a difference of two sets. -/
  | combined (left right : CharSet)
deriving Repr

/-- A description of texts. -/
inductive Pattern where
  /-- An atom. -/
  | atom (atom : Atom)
  /-- A set of characters. -/
  | set (set : CharSet)
  /-- Switches for the rest of the group. -/
  | switches (settings : Settings)
  /-- A group with switches of its own. -/
  | group (settings : Settings) (body : Pattern)
  /-- A repetition of any kind. -/
  | repeated (body : Pattern)
  /-- Patterns that follow each other. -/
  | sequence (items : List Pattern)
  /-- Patterns to choose from. -/
  | choice (items : List Pattern)
deriving Repr

/-- The members of several sets; a union of one set is that set. -/
def CharSet.ofMembers : List CharSet → CharSet
  | [set] => set
  | sets => .union sets

/-- The sequence of some patterns; a sequence of one pattern is that pattern. -/
def Pattern.ofItems : List Pattern → Pattern
  | [item] => item
  | items => .sequence items

/-- The choice between some patterns; a choice from one pattern is that pattern. -/
def Pattern.ofChoices : List Pattern → Pattern
  | [item] => item
  | items => .choice items

/-! ## Depth -/

namespace CharSet

mutual

/-- How deeply a set is nested. The empty union is as flat as a character. -/
def depth : CharSet → Nat
  | glyph _ | range _ _ | kind _ | named _ | union [] => 0
  | bracketed _ members => 1 + members.depth
  | union (set :: sets) => 1 + max set.depth (depths sets)
  | combined left right => 1 + max left.depth right.depth

/-- How deeply the deepest of several sets is nested. -/
def depths : List CharSet → Nat
  | [] => 0
  | set :: sets => max set.depth (depths sets)

end

end CharSet

namespace Pattern

mutual

/-- How deeply a pattern is nested. The empty pattern is as flat as a character. -/
def depth : Pattern → Nat
  | atom _ | switches _ | sequence [] | choice [] => 0
  | set members => members.depth
  | group _ body | repeated body => 1 + body.depth
  | sequence (item :: items) | choice (item :: items) => 1 + max item.depth (depths items)

/-- How deeply the deepest of several patterns is nested. -/
def depths : List Pattern → Nat
  | [] => 0
  | item :: items => max item.depth (depths items)

end

def depthLimit : Nat := 250

end Pattern

/-! ## Meaning -/

/-- How characters are read: the positions of the switches that matter for that. -/
structure Mode where
  /-- Whether letters stand for both their cases. -/
  caseless : Bool := false
  /-- Whether characters are those of Unicode, not bytes. -/
  unicode : Bool := true
deriving DecidableEq, Repr

namespace Mode

/-- The mode after a switch is set. -/
def set (mode : Mode) : Switch × Bool → Mode
  | (.caseless, on) => { mode with caseless := on }
  | (.unicode, on) => { mode with unicode := on }
  | _ => mode

/-- The mode after several switches are set. -/
def apply (mode : Mode) (settings : Settings) : Mode := settings.foldl set mode

end Mode

/-- Whether an atom has a meaning. A character beyond ASCII stands for all its bytes unless it is
written as one. -/
def Atom.hasMeaning (mode : Mode) : Atom → Bool
  | glyph g => if mode.unicode then !mode.caseless else !g.isByte || g.code < 0x80
  | anything => mode.unicode
  | kind negated => !mode.unicode && !negated
  | boundary => true
  | wordBoundary => !mode.unicode

namespace CharSet

mutual

/-- Whether a set has a meaning. As a set of bytes it must not reach beyond ASCII. -/
def hasMeaning (mode : Mode) : CharSet → Bool
  | glyph g => if mode.unicode then !mode.caseless else g.code < 0x80
  | range first last =>
    if mode.unicode then !mode.caseless else first.code < 0x80 && last.code < 0x80
  | kind negated => !mode.unicode && !negated
  | named negated => if mode.unicode then !mode.caseless else !negated
  | bracketed negated members => (mode.unicode || !negated) && members.hasMeaning mode
  | union sets => haveMeaning mode sets
  | combined left right => left.hasMeaning mode && right.hasMeaning mode

/-- Whether all of several sets have a meaning. -/
def haveMeaning (mode : Mode) : List CharSet → Bool
  | [] => true
  | set :: sets => set.hasMeaning mode && haveMeaning mode sets

end

end CharSet

namespace Pattern

mutual

/-- The mode behind a pattern, if all of it has a meaning. Switches hold up to the end of the group
that they stand in, also for what is to choose from behind them. -/
def modeAfter? (mode : Mode) : Pattern → Option Mode
  | atom a => if a.hasMeaning mode then some mode else none
  | set members => if members.hasMeaning mode then some mode else none
  | switches settings => some (mode.apply settings)
  | group settings body => (body.modeAfter? (mode.apply settings)).map fun _ ↦ mode
  | repeated body => body.modeAfter? mode
  | sequence items | choice items => modeAfterAll? mode items

/-- The mode behind several patterns, if all of them have a meaning. -/
def modeAfterAll? (mode : Mode) : List Pattern → Option Mode
  | [] => some mode
  | item :: items => (item.modeAfter? mode).bind fun mode ↦ modeAfterAll? mode items

end

def isUsable (pattern : Pattern) : Bool :=
  pattern.depth ≤ depthLimit && (pattern.modeAfter? {}).isSome

end Pattern

end BookmarkGraph
