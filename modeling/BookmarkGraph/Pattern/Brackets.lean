import BookmarkGraph.Pattern.Escape

/-!
# Sets of characters in brackets

Between brackets stand characters, ranges of characters, classes by name and further sets. An
operator combines what stands in front of it with what stands behind: two ampersands to the
intersection, two hyphens or two tildes to a difference. A caret at the start stands for all
characters that are not in the set, and hyphens at the start, or else a closing bracket, for
themselves.

## Contents

* `CharSet.className?`: a class by its name;
* `CharSet.item`: a character or a range;
* `CharSet.membersFrom`: the members of a set, up to its closing bracket;
* `CharSet.ofBrackets?`: a set from behind its opening bracket.
-/

namespace BookmarkGraph

/-- What an atom stands for among the members of a set, where places have no meaning. -/
def Atom.asMember? : Atom → Option CharSet
  | glyph g => some (.glyph g)
  | kind negated => some (.kind negated)
  | anything | boundary | wordBoundary => none

namespace CharSet

def classNames : List String := [
  "alnum", "alpha", "ascii", "blank", "cntrl", "digit", "graph", "lower", "print", "punct", "space",
  "upper", "word", "xdigit"]

/-- Reads a class from behind its opening bracket: its name stands between colons, behind a caret
for all characters that are not in it. -/
def className? : List Char → Option (CharSet × List Char)
  | ':' :: text =>
    let (negated, text) :=
      match text with
      | '^' :: rest => (true, rest)
      | all => (false, all)
    match text.dropWhile (· ≠ ':') with
    | ':' :: ']' :: rest =>
      if classNames.contains (String.ofList (text.takeWhile (· ≠ ':'))) then
        some (.named negated, rest)
      else none
    | _ => none
  | _ => none

/-- Reads a single character or an escape. -/
def single (spaced : Bool) : List Char → Option (Atom × List Char)
  | [] => none
  | '\\' :: rest => Pattern.escape spaced rest
  | c :: rest => some (.glyph ⟨c.toNat, false⟩, rest)

/-- The range between two characters, which are in order. -/
def range? : Atom → Atom → Option CharSet
  | .glyph first, .glyph last =>
    if first.code ≤ last.code then some (.range first last) else none
  | _, _ => none

/-- Reads a character or a range. A hyphen makes a range unless the set or what stands in front of a
difference ends behind it. -/
def item (spaced : Bool) (text : List Char) : Option (CharSet × List Char) := do
  let (first, rest) ← single spaced text
  match Pattern.skip spaced rest with
  | [] => none
  | '-' :: behind =>
    let next := Pattern.next? spaced behind
    if next = some ']' || next = some '-' then return (← first.asMember?, '-' :: behind)
    else
      let (last, rest) ← single spaced (Pattern.skip spaced behind)
      return (← range? first last, rest)
  | rest => return (← first.asMember?, rest)

/-- Whether a character makes an operator with what is behind it. -/
def isOperator (c : Char) (behind : List Char) : Bool :=
  (c = '&' || c = '-' || c = '~') && behind.head? = some c

/-- What a caret at the front says, and what is left behind it. -/
def negation (spaced : Bool) (text : List Char) : Bool × List Char :=
  match Pattern.skip spaced text with
  | '^' :: rest => (true, rest)
  | rest => (false, rest)

/-- Puts the members that were read last behind what is to be combined with them. -/
def close (left : Option CharSet) (members : List CharSet) : CharSet :=
  match left with
  | none => ofMembers members.reverse
  | some left => .combined left (ofMembers members.reverse)

/-- Reads up to behind the closing bracket. The flag tells that nothing but hyphens was read so far.
What is to be combined with the members is kept apart from them, and they in reverse order. -/
def membersFrom (spaced : Bool) : Nat → Bool → Option CharSet → List CharSet → List Char →
    Option (CharSet × List Char)
  | 0, _, _, _, _ => none
  | fuel + 1, fresh, left, members, text =>
    match Pattern.skip spaced text with
    | [] => none
    | c :: rest =>
      if fresh && (c = '-' || (c = ']' && members.isEmpty)) then
        membersFrom spaced fuel (c = '-') left (.glyph ⟨c.toNat, false⟩ :: members) rest
      else if c = ']' then some (close left members, rest)
      else if c = '[' then
        match className? rest with
        | some (known, rest) => membersFrom spaced fuel false left (known :: members) rest
        | none => do
          let (negated, rest) := negation spaced rest
          let (inner, rest) ← membersFrom spaced fuel true none [] rest
          membersFrom spaced fuel false left (.bracketed negated inner :: members) rest
      else if isOperator c rest then
        membersFrom spaced fuel false (some (close left members)) [] rest.tail
      else do
        let (member, rest) ← item spaced (c :: rest)
        membersFrom spaced fuel false left (member :: members) rest

/-- Reads a set from behind its opening bracket. Every step takes at least one character, so that
the length of the text bounds their number. -/
def ofBrackets? (spaced : Bool) (text : List Char) : Option (CharSet × List Char) := do
  let (negated, rest) := negation spaced text
  let (inner, rest) ← membersFrom spaced (rest.length + 1) true none [] rest
  return (.bracketed negated inner, rest)

end CharSet

end BookmarkGraph
