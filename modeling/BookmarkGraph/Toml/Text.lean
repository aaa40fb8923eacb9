import BookmarkGraph.Text.Numeral
import BookmarkGraph.Toml.Scanner

/-!
# Texts in configuration documents

A text is written in one of four forms: between single or triple quotation marks, in which a
backslash begins an escape, or between single or triple apostrophes, in which every character
stands for itself. Triple forms may span lines; a line break behind the opening delimiter does not
belong to the text.

The writer takes the plainest form that can hold a text. That what it writes reads back is a matter
of the characters that each form admits, which `isPlain` and `isLiteral` tell.

## Contents

* `Toml.Scan.text`: reads a text in any form;
* `Toml.form` and `Toml.quote`: the form of a text and its writing.
-/

namespace BookmarkGraph

namespace Toml

/-! ## Characters -/

/-- Characters that do not show: those before the blank, except for tabs and line breaks, and the
delete character. -/
def isControl (c : Char) : Bool := (c.toNat < 0x20 && c ≠ '\t' && c ≠ '\n') || c.toNat = 0x7F

/-- Blanks within a line. -/
def isBlank (c : Char) : Bool := c = ' ' || c = '\t'

/-- Characters that may stand in a line: all but line breaks and those that do not show. -/
def isInLine (c : Char) : Bool := !isControl c && c ≠ '\n'

/-- Characters that stand for themselves between quotation marks. -/
def isPlain (c : Char) : Bool := isInLine c && c ≠ '"' && c ≠ '\\'

/-- Characters that may stand between apostrophes. -/
def isLiteral (c : Char) : Bool := isInLine c && c ≠ '\''

/-! ## Escapes -/

/-- The character with a code point, which is given by its hexadecimal digits. -/
def codePoint? (digits : List Char) : Option Char := do
  let values ← digits.mapM Numeral.hexValue?
  let code := values.foldl (fun n d ↦ 16 * n + d) 0
  if h : code.isValidChar then return Char.ofNatAux code h else none

/-- The character that a letter behind a backslash stands for. -/
def escapeOf? : Char → Option Char
  | 'b' => some '\x08'
  | 't' => some '\t'
  | 'n' => some '\n'
  | 'f' => some '\x0c'
  | 'r' => some '\r'
  | '"' => some '"'
  | '\\' => some '\\'
  | _ => none

/-! ## Reading -/

namespace Scan

/-- A text up to the closing quotation mark on the same line. -/
def basic : Scanner (List Char)
  | [] => fault []
  | '"' :: rest => .ok ([], rest)
  | '\\' :: 'u' :: a :: b :: c :: d :: rest =>
    match codePoint? [a, b, c, d] with
    | some x => push x (basic rest)
    | none => fault (a :: b :: c :: d :: rest)
  | '\\' :: 'U' :: a :: b :: c :: d :: e :: f :: g :: h :: rest =>
    match codePoint? [a, b, c, d, e, f, g, h] with
    | some x => push x (basic rest)
    | none => fault (a :: b :: c :: d :: e :: f :: g :: h :: rest)
  | '\\' :: c :: rest =>
    match escapeOf? c with
    | some x => push x (basic rest)
    | none => fault (behindByte c rest)
  | c :: rest => if isPlain c then push c (basic rest) else fault (c :: rest)

/-- A text up to the closing apostrophe on the same line. -/
def literal : Scanner (List Char)
  | [] => fault []
  | '\'' :: rest => .ok ([], rest)
  | c :: rest => if isLiteral c then push c (literal rest) else fault (c :: rest)

/-- The end of a text between triple delimiters, in front of which up to two delimiters belong to
the text. -/
def ending? (delimiter : Char) (input : Place) : Option (List Char × Place) :=
  let run := (input.takeWhile (· = delimiter)).length
  if run < 3 then none
  else
    let inside := min 2 (run - 3)
    some (List.replicate inside delimiter, input.drop (inside + 3))

/-- Whether a line ends here, not counting blanks. -/
def endsLine (input : Place) : Bool :=
  match input.dropWhile isBlank with
  | '\n' :: _ | '\r' :: '\n' :: _ => true
  | _ => false

/-- Whether what follows a backslash is the rest of an escape. -/
def isEscape : Place → Bool
  | 'u' :: a :: b :: c :: d :: _ => (codePoint? [a, b, c, d]).isSome
  | 'U' :: a :: b :: c :: d :: e :: f :: g :: h :: _ =>
    (codePoint? [a, b, c, d, e, f, g, h]).isSome
  | c :: _ => (escapeOf? c).isSome
  | [] => false

/-- The place where a text between triple quotation marks goes wrong because of what stands behind
one or two quotation marks, with which `input` begins. They belong to the text only if it goes on
behind them; otherwise they should be three. -/
def quotesFault? (input : Place) : Option Place :=
  match input.dropWhile (· = '"') with
  | '\n' :: _ | '\r' :: '\n' :: _ => none
  | ['\\'] => some input
  | '\\' :: rest => if endsLine rest || isEscape rest then none else some ('\\' :: rest)
  | c :: _ => if isPlain c then none else some input
  | [] => some input

/-- A text up to the closing triple quotation mark. After a backslash at the end of a line, which
the flag tells, all blanks and line breaks are left out. -/
def multiBasic : Bool → Scanner (List Char)
  | _, [] => fault []
  | folding, '\n' :: rest =>
    if folding then multiBasic true rest else push '\n' (multiBasic false rest)
  | folding, '\r' :: '\n' :: rest =>
    if folding then multiBasic true rest else push '\n' (multiBasic false rest)
  | _, '\\' :: 'u' :: a :: b :: c :: d :: rest =>
    match codePoint? [a, b, c, d] with
    | some x => push x (multiBasic false rest)
    | none => fault (a :: b :: c :: d :: rest)
  | _, '\\' :: 'U' :: a :: b :: c :: d :: e :: f :: g :: h :: rest =>
    match codePoint? [a, b, c, d, e, f, g, h] with
    | some x => push x (multiBasic false rest)
    | none => fault (a :: b :: c :: d :: e :: f :: g :: h :: rest)
  | _, '\\' :: c :: rest =>
    if endsLine (c :: rest) then multiBasic true (c :: rest)
    else
      match escapeOf? c with
      | some x => push x (multiBasic false rest)
      | none => fault (behindByte c rest)
  | folding, c :: rest =>
    if c = '"' then
      match ending? '"' (c :: rest) with
      | some result => .ok result
      | none =>
        match quotesFault? (c :: rest) with
        | some place => fault place
        | none => push '"' (multiBasic false rest)
    else if folding && isBlank c then multiBasic true rest
    else if isPlain c then push c (multiBasic false rest)
    else fault (c :: rest)

/-- Whether a text between triple apostrophes goes on behind one or two apostrophes, with which
`input` begins. -/
def goesOn (input : Place) : Bool :=
  match input.dropWhile (· = '\'') with
  | '\r' :: '\n' :: _ => true
  | c :: _ => c = '\n' || isLiteral c
  | [] => false

/-- A text up to the closing triple apostrophe. -/
def multiLiteral : Scanner (List Char)
  | [] => fault []
  | '\r' :: '\n' :: rest => push '\n' (multiLiteral rest)
  | c :: rest =>
    if c = '\'' then
      match ending? '\'' (c :: rest) with
      | some result => .ok result
      | none => if goesOn (c :: rest) then push '\'' (multiLiteral rest) else fault (c :: rest)
    else if c = '\n' || isLiteral c then push c (multiLiteral rest)
    else fault (c :: rest)

/-- What is left behind a line break, if there is one. -/
def skipBreak : Place → Place
  | '\n' :: rest => rest
  | '\r' :: '\n' :: rest => rest
  | input => input

def text : Scanner String := fun input ↦ do
  let (characters, rest) ←
    match input with
    | '"' :: '"' :: '"' :: rest => multiBasic false (skipBreak rest)
    | '"' :: rest => basic rest
    | '\'' :: '\'' :: '\'' :: rest => multiLiteral (skipBreak rest)
    | '\'' :: rest => literal rest
    | _ => miss input
  return (String.ofList characters, rest)

end Scan

/-! ## Writing -/

/-- The forms of a text. -/
inductive Form where
  /-- Between quotation marks. -/
  | basic
  /-- Between apostrophes. -/
  | literal
  /-- Between triple quotation marks. -/
  | multiBasic
  /-- Between triple apostrophes. -/
  | multiLiteral
deriving DecidableEq, Repr

/-- The length of the longest run of a character, `current` being the length of the run that ends
here. -/
def longestRun (c : Char) (current : Nat) : List Char → Nat
  | [] => current
  | x :: rest =>
    if x = c then longestRun c (current + 1) rest else max current (longestRun c 0 rest)

/-- The plainest form that holds a text: quotation marks if nothing needs an escape, else
apostrophes, else the triple forms, and escapes only if no form can do without. -/
def form (characters : List Char) : Form :=
  let controls := characters.any isControl
  let backslashes := characters.contains '\\'
  let breaks := characters.contains '\n'
  let quotes := longestRun '"' 0 characters
  let apostrophes := longestRun '\'' 0 characters
  if !controls && !backslashes && quotes = 0 && !breaks then .basic
  else if !controls && apostrophes = 0 && !breaks then .literal
  else if !controls && !backslashes && quotes ≤ 2 then .multiBasic
  else if !controls && apostrophes ≤ 2 then .multiLiteral
  else if breaks then .multiBasic
  else .basic

def hexDigit (n : Nat) : Char := (Nat.digitChar n).toUpper

/-- One character between quotation marks. A quotation mark and a line break are handled by the
caller. -/
def escape (c : Char) : List Char :=
  match c with
  | '\x08' => ['\\', 'b']
  | '\t' => ['\\', 't']
  | '\x0c' => ['\\', 'f']
  | '\r' => ['\\', 'r']
  | '\\' => ['\\', '\\']
  | c =>
    if isControl c then ['\\', 'u', '0', '0', hexDigit (c.toNat / 16), hexDigit (c.toNat % 16)]
    else [c]

/-- A text between quotation marks on one line. -/
def writeBasic : List Char → List Char
  | [] => []
  | '"' :: rest => '\\' :: '"' :: writeBasic rest
  | '\n' :: rest => '\\' :: 'n' :: writeBasic rest
  | c :: rest => escape c ++ writeBasic rest

/-- A text between triple quotation marks, `quotes` of which stand directly in front. Every third
quotation mark in a row is escaped. -/
def writeMultiBasic (quotes : Nat) : List Char → List Char
  | [] => []
  | '"' :: rest =>
    if quotes < 2 then '"' :: writeMultiBasic (quotes + 1) rest
    else '\\' :: '"' :: writeMultiBasic 0 rest
  | '\n' :: rest => '\n' :: writeMultiBasic 0 rest
  | c :: rest => escape c ++ writeMultiBasic 0 rest

/-- A text in a given form. A triple form that spans lines begins with a line break. -/
def write (form : Form) (characters : List Char) : List Char :=
  let lead := if characters.contains '\n' then ['\n'] else []
  match form with
  | .basic => ['"'] ++ writeBasic characters ++ ['"']
  | .literal => ['\''] ++ characters ++ ['\'']
  | .multiBasic =>
    ['"', '"', '"'] ++ lead ++ writeMultiBasic 0 characters ++ ['"', '"', '"']
  | .multiLiteral => ['\'', '\'', '\''] ++ lead ++ characters ++ ['\'', '\'', '\'']

/-- A text in its plainest form. -/
def quote (text : String) : String :=
  String.ofList (write (form text.toList) text.toList)

end Toml

end BookmarkGraph
