/-!
# Places in texts

A reader that works its way through a text holds what is left of it, and that is a place in the
text already. People count lines and columns instead; `LineColumn.ofPlace` counts them.

Columns are characters, except in front of a character beyond ASCII, where they are bytes. The end
of a text is counted from its last character, so a line break at the end begins no line.
-/

namespace BookmarkGraph

/-- A place in a text: what is left of the text from there on. -/
abbrev Place := List Char

/-- A place as people count it. Both numbers begin with one. -/
structure LineColumn where
  /-- The line. -/
  line : Nat
  /-- The column. -/
  column : Nat
deriving DecidableEq, Repr

namespace LineColumn

/-- The part of a text that stands in its last line. -/
def lastLine (text : List Char) : List Char := (text.reverse.takeWhile (· ≠ '\n')).reverse

/-- The line and the column of a place in a text. -/
def ofPlace (text : List Char) (place : Place) : LineColumn :=
  match place with
  | [] => ⟨text.dropLast.count '\n' + 1, (lastLine text.dropLast).length + 2⟩
  | c :: _ =>
    let front := text.take (text.length - place.length)
    let line := lastLine front
    let width := if c.toNat < 0x80 then line.length else (String.ofList line).utf8ByteSize
    ⟨front.count '\n' + 1, width + 1⟩

end LineColumn

end BookmarkGraph
