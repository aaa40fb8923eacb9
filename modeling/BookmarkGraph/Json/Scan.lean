import BookmarkGraph.Error
import BookmarkGraph.Json.Basic
import BookmarkGraph.Number.Scaled
import BookmarkGraph.Number.Width
import BookmarkGraph.Text.Symbol

/-!
# The parts of a JSON text

Blanks, words, texts in quotes and numbers, each read from the front of a list of symbols. A text
that ends too early is told apart from one that is malformed.

Texts and numbers can also be skipped. What is skipped must have the right form, but its meaning is
not looked at: a skipped number may be too large for a double, a skipped text may hold an unpaired
surrogate or a byte that encodes no character.

## Contents

* `Scan.blanks`, `Scan.word`;
* `Scan.text` and `Scan.skipText`: from behind the opening quote to behind the closing one;
* `Scan.number` and `Scan.skipNumber`: numbers, whose sign has been read already.
-/

namespace BookmarkGraph.Json.Scan

/-- Reading that may fail. -/
abbrev Attempt := Except DocumentFault

/-- What was read from the front of a list of symbols, and what is left. -/
abbrev Parsed (α : Type) := α × List Symbol

/-! ## Blanks and words -/

/-- Whether a symbol separates the parts of a text. -/
def isBlank (s : Symbol) : Bool := s = some ' ' || s = some '\n' || s = some '\t' || s = some '\r'

/-- What is left behind the blanks at the front. -/
def blanks (input : List Symbol) : List Symbol := input.dropWhile isBlank

/-- Reads the given characters. -/
def word : List Char → List Symbol → Attempt (List Symbol)
  | [], input => .ok input
  | _ :: _, [] => .error .early
  | c :: rest, s :: input => if s = some c then word rest input else .error .syntactic

/-! ## Texts -/

def hexValue? (s : Symbol) : Option Nat :=
  s.bind fun c ↦
    if c.isDigit then some (c.toNat - '0'.toNat)
    else if 'a' ≤ c ∧ c ≤ 'f' then some (c.toNat - 'a'.toNat + 10)
    else if 'A' ≤ c ∧ c ≤ 'F' then some (c.toNat - 'A'.toNat + 10)
    else none

/-- Four hexadecimal digits. The text ends too early when fewer than four bytes are left. -/
def hexUnit (input : List Symbol) : Attempt (Parsed Nat) :=
  match input with
  | a :: b :: c :: d :: rest =>
    match hexValue? a, hexValue? b, hexValue? c, hexValue? d with
    | some a, some b, some c, some d => .ok (((a * 16 + b) * 16 + c) * 16 + d, rest)
    | _, _, _, _ => .error .syntactic
  | few => if 4 ≤ few.foldr (fun s n ↦ s.width + n) 0 then .error .syntactic else .error .early

/-- The character that a single letter behind a backslash stands for. -/
def escapeLetter? (s : Symbol) : Option Char :=
  match s with
  | some '"' => some '"'
  | some '\\' => some '\\'
  | some '/' => some '/'
  | some 'b' => some '\x08'
  | some 'f' => some '\x0c'
  | some 'n' => some '\n'
  | some 'r' => some '\r'
  | some 't' => some '\t'
  | _ => none

/-- Whether a code unit is the first half of a pair. -/
def isHighSurrogate (code : Nat) : Bool := 0xD800 ≤ code && code < 0xDC00

/-- Whether a code unit is the second half of a pair. -/
def isLowSurrogate (code : Nat) : Bool := 0xDC00 ≤ code && code < 0xE000

/-- The second half of a pair, which must follow as another escape. -/
def lowSurrogate (input : List Symbol) : Attempt (Parsed Nat) :=
  match input with
  | [] => .error .early
  | some '\\' :: [] => .error .early
  | some '\\' :: some 'u' :: rest => do
    let (code, rest) ← hexUnit rest
    if isLowSurrogate code then return (code, rest) else throw .syntactic
  | _ => .error .syntactic

/-- The character of a numeric escape, read from behind the letter. -/
def numericEscape (input : List Symbol) : Attempt (Parsed Char) := do
  let (code, rest) ← hexUnit input
  if isLowSurrogate code then throw .syntactic
  else if isHighSurrogate code then
    let (low, rest) ← lowSurrogate rest
    return (Char.ofNat (0x10000 + (code - 0xD800) * 0x400 + (low - 0xDC00)), rest)
  else return (Char.ofNat code, rest)

/-- The symbol of an escape, read from behind the backslash. -/
def escape (input : List Symbol) : Attempt (Parsed Symbol) :=
  match input with
  | [] => .error .early
  | some 'u' :: rest => (numericEscape rest).map fun (c, rest) ↦ (some c, rest)
  | s :: rest =>
    match escapeLetter? s with
    | some c => .ok (some c, rest)
    | none => .error .syntactic

/-- An escape of which only the form counts. -/
def skipEscape (input : List Symbol) : Attempt (Parsed Symbol) :=
  match input with
  | some 'u' :: rest => (hexUnit rest).map fun (_, rest) ↦ (none, rest)
  | other => escape other

/-- Whether a symbol may not stand in a text. -/
def isControl (s : Symbol) : Bool := s.any fun c ↦ c.toNat < 0x20

/-- The symbols up to the closing quote, escapes resolved by `unescape`. The first argument bounds
the number of symbols, for which the length of the input is enough. -/
def symbols (unescape : List Symbol → Attempt (Parsed Symbol)) :
    Nat → List Symbol → Attempt (Parsed (List Symbol))
  | 0, _ => .error .early
  | _ + 1, [] => .error .early
  | _ + 1, some '"' :: rest => .ok ([], rest)
  | n + 1, some '\\' :: rest => do
    let (s, rest) ← unescape rest
    let (more, rest) ← symbols unescape n rest
    return (s :: more, rest)
  | n + 1, s :: rest =>
    if isControl s then .error .syntactic
    else do
      let (more, rest) ← symbols unescape n rest
      return (s :: more, rest)

/-- A text, read from behind the opening quote; all of it must be characters. -/
def text (bound : Nat) (input : List Symbol) : Attempt (Parsed String) := do
  let (read, rest) ← symbols escape bound input
  match read.mapM fun s ↦ s with
  | some chars => return (String.ofList chars, rest)
  | none => throw .syntactic

/-- What is left behind a text of which only the form counts. -/
def skipText (bound : Nat) (input : List Symbol) : Attempt (List Symbol) :=
  (symbols skipEscape bound input).map (·.2)

/-! ## Numbers -/

def digitValue? (s : Symbol) : Option Nat :=
  s.bind fun c ↦ if c.isDigit then some (c.toNat - '0'.toNat) else none

def isDigit (s : Symbol) : Bool := (digitValue? s).isSome

def digits (input : List Symbol) : List Nat × List Symbol :=
  ((input.takeWhile isDigit).filterMap digitValue?, input.dropWhile isDigit)

/-- The parts of a number as they are written. -/
structure Numeral where
  /-- The digits before the point. -/
  whole : List Nat
  /-- The digits behind the point, if there is a point. -/
  fraction : Option (List Nat)
  /-- The exponent, if there is one. -/
  exponent : Option Int

/-- The digits before the point: a single zero, or digits of which the first is not zero. -/
def wholePart (input : List Symbol) (atEnd : DocumentFault) : Attempt (Parsed (List Nat)) :=
  match input with
  | [] => .error atEnd
  | some '0' :: rest =>
    if rest.head?.any isDigit then .error .syntactic else .ok ([0], rest)
  | s :: rest => if isDigit s then .ok (digits (s :: rest)) else .error .syntactic

/-- The digits behind a point, at least one. -/
def fractionPart (input : List Symbol) (atEnd : DocumentFault) :
    Attempt (Parsed (Option (List Nat))) :=
  match input with
  | some '.' :: rest =>
    match digits rest with
    | ([], []) => .error atEnd
    | ([], _ :: _) => .error .syntactic
    | (read, rest) => .ok (some read, rest)
  | other => .ok (none, other)

def ofDigits (read : List Nat) : Nat := read.foldl (fun n d ↦ 10 * n + d) 0

def exponentSign (input : List Symbol) : Bool × List Symbol :=
  match input with
  | some '+' :: rest => (false, rest)
  | some '-' :: rest => (true, rest)
  | other => (false, other)

/-- An exponent, with at least one digit. -/
def exponentPart (input : List Symbol) (atEnd : DocumentFault) : Attempt (Parsed (Option Int)) :=
  match input with
  | some 'e' :: rest | some 'E' :: rest =>
    let (negative, rest) := exponentSign rest
    match digits rest with
    | ([], []) => .error atEnd
    | ([], _ :: _) => .error .syntactic
    | (read, rest) =>
      .ok (some (if negative then -(ofDigits read : Int) else ofDigits read), rest)
  | other => .ok (none, other)

/-- The parts of a number; `atEnd` is the fault of a text that ends within it. -/
def numeral (input : List Symbol) (atEnd : DocumentFault) : Attempt (Parsed Numeral) := do
  let (whole, rest) ← wholePart input atEnd
  let (fraction, rest) ← fractionPart rest atEnd
  let (exponent, rest) ← exponentPart rest atEnd
  return (⟨whole, fraction, exponent⟩, rest)

/-- Adds digits to a significand as long as it fits 64 bits, and tells how many were taken. -/
def extend (significand : Nat) : List Nat → Nat × Nat
  | [] => (significand, 0)
  | d :: rest =>
    if 10 * significand + d < UInt64.size then
      let (n, taken) := extend (10 * significand + d) rest
      (n, taken + 1)
    else (significand, 0)

/-- The value of a number. A whole number that fits 64 bits is an integer, except for a negative
zero. Every other number is a significand of at most 64 bits, scaled by a power of ten; digits that
do not fit the significand count as zeros before the point and for nothing behind it. -/
def value (negative : Bool) (n : Numeral) : Attempt Json :=
  let (whole, taken) := extend 0 n.whole
  let dropped := n.whole.length - taken
  if n.fraction.isNone && n.exponent.isNone && dropped = 0 && !negative then .ok (.integer whole)
  else if n.fraction.isNone && n.exponent.isNone && dropped = 0 && 0 < whole
      && whole ≤ signedLimit then
    .ok (.integer (-whole))
  else
    let (significand, places) := extend whole (n.fraction.getD [])
    let power : Int := dropped - places + n.exponent.getD 0
    match (Double.ofNat significand).scaleByTen power with
    | some x => .ok (.float (if negative then x.neg else x))
    | none => .error .syntactic

/-- A number, read from behind its sign. -/
def number (negative : Bool) (input : List Symbol) : Attempt (Parsed Json) := do
  let (n, rest) ← numeral input .early
  return (← value negative n, rest)

/-- What is left behind a number of which only the form counts. A text that ends within it is
malformed rather than too short. -/
def skipNumber (input : List Symbol) : Attempt (List Symbol) :=
  (numeral input .syntactic).map (·.2)

end BookmarkGraph.Json.Scan
