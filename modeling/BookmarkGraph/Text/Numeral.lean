import BookmarkGraph.Number.Width

/-!
# Reading numbers

Decimal digits are read from the left, each one multiplying what was read so far by ten. A sign may
stand in front; what remains must be at least one digit and nothing else, and the number must fit
the width that is asked for.

A number of any kind may have a point and an exponent, too. It is only recognized, not read.
-/

namespace BookmarkGraph.Numeral

def digitValue? (c : Char) : Option Nat := if c.isDigit then some (c.toNat - '0'.toNat) else none

def hexValue? (c : Char) : Option Nat :=
  if '0' ≤ c ∧ c ≤ '9' then some (c.toNat - '0'.toNat)
  else if 'a' ≤ c ∧ c ≤ 'f' then some (c.toNat - 'a'.toNat + 10)
  else if 'A' ≤ c ∧ c ≤ 'F' then some (c.toNat - 'A'.toNat + 10)
  else none

/-- Continues a number with the digits of a list. -/
def accumulate (value : Nat) : List Char → Option Nat
  | [] => some value
  | c :: rest => (digitValue? c).bind fun digit ↦ accumulate (10 * value + digit) rest

/-- A natural number from one or more digits. -/
def natural? : List Char → Option Nat
  | [] => none
  | digits => accumulate 0 digits

/-- A 64-bit natural number, with a plus sign at most. -/
def unsigned64? (text : String) : Option UInt64 :=
  let digits :=
    match text.toList with
    | '+' :: rest => rest
    | all => all
  (natural? digits).bind fun value ↦ if value < UInt64.size then some (UInt64.ofNat value) else none

/-- A 64-bit integer, with a sign at most. -/
def signed64? (text : String) : Option Int64 :=
  match text.toList with
  | '-' :: rest =>
    (natural? rest).bind fun n ↦ if n ≤ signedLimit then some (Int64.ofInt (-n)) else none
  | '+' :: rest =>
    (natural? rest).bind fun n ↦ if n < signedLimit then some (Int64.ofNat n) else none
  | all =>
    (natural? all).bind fun n ↦ if n < signedLimit then some (Int64.ofNat n) else none

/-- Whether a text is nothing but digits, of which there is at least one. -/
def isDigits (text : List Char) : Bool := !text.isEmpty && text.all Char.isDigit

/-- Whether a text is an exponent of ten, with or without a sign. -/
def isExponent : List Char → Bool
  | '+' :: digits | '-' :: digits => isDigits digits
  | digits => isDigits digits

/-- Whether a text is a decimal number with its digits in front of a point or behind it, and an
exponent at most. -/
def isDecimal (text : List Char) : Bool :=
  let whole := text.takeWhile Char.isDigit
  let (part, rest) :=
    match text.dropWhile Char.isDigit with
    | '.' :: more => (more.takeWhile Char.isDigit, more.dropWhile Char.isDigit)
    | other => ([], other)
  isDigits (whole ++ part) &&
    match rest with
    | [] => true
    | c :: exponent => (c = 'e' || c = 'E') && isExponent exponent

/-- Whether a text is a number of any kind, infinity, or the word for what is no number. A sign may
stand in front, and capital letters are allowed. -/
def isNumber (text : List Char) : Bool :=
  let unsigned :=
    match text with
    | '+' :: rest | '-' :: rest => rest
    | all => all
  ["inf", "infinity", "nan"].contains (String.ofList (unsigned.map Char.toLower))
    || isDecimal unsigned

end BookmarkGraph.Numeral
