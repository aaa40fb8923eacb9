import BookmarkGraph.Pattern.Basic
import BookmarkGraph.Text.Fields
import BookmarkGraph.Text.Numeral

/-!
# Single characters in patterns

A character stands for itself unless it is an operator. A backslash gives an operator its plain
meaning, names a character by its code point, or makes a letter stand for something else.

Where white space does not count, neither do comments, which begin with a number sign and last to
the end of their line.

A closing brace ends the condition that a pattern stands in. What needs one can thus never be
complete, so that an opening brace outside a set is always a fault.

## Contents

* `Pattern.skip`: what is left behind white space and comments;
* `Pattern.next?`: the character that decides about a hyphen;
* `Pattern.escape`: what stands behind a backslash.
-/

namespace BookmarkGraph.Pattern

/-! ## White space -/

/-- What is left behind white space and comments, from within a comment or not. -/
def skipFrom (commented : Bool) : List Char → List Char
  | [] => []
  | c :: rest =>
    if commented then skipFrom (c ≠ '\n') rest
    else if Fields.isSpace c then skipFrom false rest
    else if c = '#' then skipFrom true rest
    else c :: rest

/-- What is left behind white space and comments if they do not count. -/
def skip (spaced : Bool) (text : List Char) : List Char :=
  if spaced then skipFrom false text else text

/-- The first character that is not white space. One number sign does not count. -/
def firstInk? (signed : Bool) : List Char → Option Char
  | [] => none
  | c :: rest =>
    if Fields.isSpace c then firstInk? signed rest
    else if c = '#' && !signed then firstInk? true rest
    else some c

/-- The character by which a hyphen is told from a range or a difference, taken from what stands
behind the hyphen. A comment is not skipped as a whole here, only its number sign is. -/
def next? (spaced : Bool) (text : List Char) : Option Char :=
  if spaced then (firstInk? false text).or text.head? else text.head?

/-! ## Escapes -/

/-- Reads hexadecimal digits, each multiplying what was read so far by sixteen. White space may
stand between them. -/
def hexCode (spaced : Bool) : Nat → Nat → List Char → Option (Nat × List Char)
  | 0, value, text => some (value, text)
  | _ + 1, _, [] => none
  | count + 1, value, c :: rest => do
    let digit ← Numeral.hexValue? c
    hexCode spaced count (16 * value + digit) (skip spaced rest)

/-- A character that is named by the given number of hexadecimal digits. -/
def codePoint (spaced : Bool) (count : Nat) (text : List Char) : Option (Atom × List Char) := do
  let (code, rest) ← hexCode spaced count 0 (skip spaced text)
  if code.isValidChar then return (.glyph ⟨code, count = 2⟩, rest) else none

/-- Whether a backslash leaves a character its plain meaning: operators, signs, blanks and control
characters of ASCII, but not those that may mark words. -/
def isPlainEscaped (c : Char) : Bool := c.toNat < 0x80 && !c.isAlphanum && c ≠ '<' && c ≠ '>'

/-- What a character behind a backslash stands for by itself. -/
def escaped? (c : Char) : Option Atom :=
  match c with
  | 'd' | 's' | 'w' => some (.kind false)
  | 'D' | 'S' | 'W' => some (.kind true)
  | 'A' | 'z' => some .boundary
  | 'b' | 'B' | '<' | '>' => some .wordBoundary
  | 'a' => some (.glyph ⟨0x07, false⟩)
  | 't' => some (.glyph ⟨0x09, false⟩)
  | 'n' => some (.glyph ⟨0x0A, false⟩)
  | 'v' => some (.glyph ⟨0x0B, false⟩)
  | 'f' => some (.glyph ⟨0x0C, false⟩)
  | 'r' => some (.glyph ⟨0x0D, false⟩)
  | c => if isPlainEscaped c then some (.glyph ⟨c.toNat, false⟩) else none

/-- Reads what stands behind a backslash. -/
def escape (spaced : Bool) : List Char → Option (Atom × List Char)
  | [] => none
  | 'x' :: rest => codePoint spaced 2 rest
  | 'u' :: rest => codePoint spaced 4 rest
  | 'U' :: rest => codePoint spaced 8 rest
  | c :: rest => (escaped? c).map fun atom ↦ (atom, rest)

end BookmarkGraph.Pattern
