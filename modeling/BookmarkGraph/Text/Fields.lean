/-!
# Fields of a text

A text is cut into fields at every occurrence of a delimiter, and white space around a field does
not count.

## Contents

* `Fields.isSpace`: white space;
* `Fields.trim`: a text without white space at its ends;
* `Fields.split`, `Fields.splitOnce`: a text cut at all occurrences of a delimiter, or at the first;
* `Fields.list`: the fields of a text that are not empty.
-/

namespace BookmarkGraph.Fields

/-- White space: the characters with the property of that name, among them the line separators and
the blanks of fixed width. -/
def isSpace (c : Char) : Bool :=
  let n := c.toNat
  (0x09 ≤ n && n ≤ 0x0D) || n = 0x20 || n = 0x85 || n = 0xA0 || n = 0x1680
    || (0x2000 ≤ n && n ≤ 0x200A) || n = 0x2028 || n = 0x2029 || n = 0x202F || n = 0x205F
    || n = 0x3000

/-- A text without white space at its ends. -/
def trim (text : List Char) : List Char :=
  ((text.dropWhile isSpace).reverse.dropWhile isSpace).reverse

/-- The parts of a text between the occurrences of a delimiter; one more than there are
occurrences. -/
def split (delimiter : Char) : List Char → List (List Char)
  | [] => [[]]
  | c :: rest =>
    if c = delimiter then [] :: split delimiter rest
    else
      match split delimiter rest with
      | [] => [[c]]
      | part :: parts => (c :: part) :: parts

/-- The parts of a text in front of and behind the first occurrence of a delimiter. -/
def splitOnce (delimiter : Char) : List Char → Option (List Char × List Char)
  | [] => none
  | c :: rest =>
    if c = delimiter then some ([], rest)
    else (splitOnce delimiter rest).map fun (front, back) ↦ (c :: front, back)

/-- The fields of a text, without white space around them and without those that are empty then. -/
def list (delimiter : Char) (text : List Char) : List (List Char) :=
  ((split delimiter text).map trim).filter fun field ↦ !field.isEmpty

end BookmarkGraph.Fields
