import BookmarkGraph.Number.Double
import BookmarkGraph.Number.Width
import BookmarkGraph.Toml.Text

/-!
# Numbers and moments in configuration documents

Whole numbers are decimal with a sign, or unsigned hexadecimal, octal or binary; digits may be
grouped by underscores, and a whole number must fit into 64 bits with a sign. Floats have a
fraction or an exponent. Dates and times are checked against the calendar.

Of floats and moments only the form is read; they are kept as they are written.
-/

namespace BookmarkGraph

namespace Toml.Scan

/-! ## Digits -/

/-- The values of digits up to the first character that is none. An underscore stands between two
digits. -/
def digitTail (valueOf : Char → Option Nat) : Scanner (List Nat)
  | [] => .ok ([], [])
  | ['_'] => fault []
  | '_' :: c :: rest =>
    match valueOf c with
    | some d => push d (digitTail valueOf rest)
    | none => fault (c :: rest)
  | c :: rest =>
    match valueOf c with
    | some d => push d (digitTail valueOf rest)
    | none => .ok ([], c :: rest)

/-- The values of at least one digit. -/
def digits (valueOf : Char → Option Nat) : Scanner (List Nat)
  | [] => miss []
  | c :: rest =>
    match valueOf c with
    | some d => push d (digitTail valueOf rest)
    | none => miss (c :: rest)

def digitValue? (base : Nat) (c : Char) : Option Nat := (Numeral.hexValue? c).filter (· < base)

def ofDigits (base : Nat) (ds : List Nat) : Nat := ds.foldl (fun n d ↦ base * n + d) 0

/-- Whether a number is negative, by the sign in front of it, and what is left behind the sign. -/
def sign : Place → Bool × Place
  | '-' :: rest => (true, rest)
  | '+' :: rest => (false, rest)
  | input => (false, input)

/-- A number with the sign in front of it. -/
def signed (negative : Bool) (n : Nat) : Int := if negative then -n else n

/-- The digits of a decimal number, which begin with zero only if there are no others. -/
def decimalDigits : Scanner (List Nat)
  | '0' :: rest => .ok ([0], rest)
  | input => digits (digitValue? 10) input

/-! ## Whole numbers -/

/-- Whether a whole number fits into 64 bits with a sign. -/
def fits (n : Int) : Bool := -(signedLimit : Int) ≤ n && n < signedLimit

/-- A whole number of a base other than ten, `input` being what is left behind its mark. -/
def based (base : Nat) (start input : Place) : Except Stop (Int × Place) := do
  let (ds, rest) ← commit (digits (digitValue? base) input)
  let n : Int := ofDigits base ds
  if fits n then return (n, rest) else fault start

def integer : Scanner Int := fun input ↦
  match input with
  | '0' :: 'x' :: rest => based 16 input rest
  | '0' :: 'o' :: rest => based 8 input rest
  | '0' :: 'b' :: rest => based 2 input rest
  | _ => do
    let (negative, rest) := sign input
    let (ds, rest) ← decimalDigits rest
    let n := signed negative (ofDigits 10 ds)
    if fits n then return (n, rest) else fault input

/-! ## Floats -/

/-- Whether the double nearest to `n` times a power of ten is infinite. The number of digits of `n`
decides unless it is close to the limit. -/
def isTooLarge (n digitCount : Nat) (exponent : Int) : Bool :=
  if n = 0 then false
  else if digitCount + exponent < 300 then false
  else if 400 < (Nat.toDigits 10 n).length + exponent then true
  else
    let num := n * Double.unitsPerOne * Nat.pow 10 exponent.toNat
    (Double.ofUnits false num (Nat.pow 10 (-exponent).toNat)).isInfinite

def exponent : Scanner Int
  | c :: rest =>
    if c = 'e' || c = 'E' then do
      let (negative, rest) := sign rest
      let (ds, rest) ← commit (digits (digitValue? 10) rest)
      return (signed negative (ofDigits 10 ds), rest)
    else miss (c :: rest)
  | [] => miss []

/-- The digits behind the point of a float. -/
def fraction : Scanner (List Nat) := fun input ↦ do
  commit (digits (digitValue? 10) (← expect ['.'] input))

/-- An exponent, or a fraction and possibly an exponent. -/
def fractionAndExponent : Scanner (List Nat × Int) :=
  orElse
    (fun input ↦ do
      let (power, rest) ← exponent input
      return (([], power), rest))
    (fun input ↦ do
      let (ds, rest) ← fraction input
      let (power, rest) ← optional exponent rest
      return ((ds, power.getD 0), rest))

/-- What is left behind a float with digits. A float above all finite ones is refused; one below
them is not. -/
def decimalFloat (input : Place) : Except Stop Place := do
  let (negative, rest) := sign input
  let (whole, rest) ← decimalDigits rest
  let ((part, power), rest) ← fractionAndExponent rest
  let ds := whole ++ part
  if !negative && isTooLarge (ofDigits 10 ds) ds.length (power - part.length) then fault input
  else return rest

/-- What is left behind an infinity or a float that is no number. -/
def namedFloat (input : Place) : Except Stop Place :=
  match (sign input).2 with
  | 'i' :: 'n' :: 'f' :: rest => .ok rest
  | 'n' :: 'a' :: 'n' :: rest => .ok rest
  | rest => miss rest

/-! ## Moments -/

/-- A number of exactly two digits within bounds. -/
def twoDigits (least greatest : Nat) : Scanner Nat := fun input ↦
  match input with
  | a :: b :: rest =>
    match digitValue? 10 a, digitValue? 10 b with
    | some tens, some ones =>
      let n := 10 * tens + ones
      if least ≤ n ∧ n ≤ greatest then .ok (n, rest) else miss input
    | _, _ => miss input
  | _ => miss input

def daysOf (year month : Nat) : Nat :=
  if month = 2 then if year % 4 = 0 && (year % 100 ≠ 0 || year % 400 = 0) then 29 else 28
  else if month = 4 || month = 6 || month = 9 || month = 11 then 30
  else 31

/-- What is left behind a date. It is one as soon as a hyphen follows four digits. -/
def date (input : Place) : Except Stop Place := do
  let (century, rest) ← twoDigits 0 99 input
  let (year, rest) ← twoDigits 0 99 rest
  let rest ← expect ['-'] rest
  commit do
    let (month, rest) ← twoDigits 1 12 rest
    let rest ← expect ['-'] rest
    let (_, rest) ← twoDigits 1 (daysOf (100 * century + year) month) rest
    return rest

/-- What is left behind the parts of a second, if they are given. -/
def secondParts : Place → Place
  | '.' :: c :: rest => if c.isDigit then rest.dropWhile Char.isDigit else '.' :: c :: rest
  | input => input

/-- What is left behind a time of day. It is one as soon as a colon follows two digits. A minute may
have a leap second. -/
def time (input : Place) : Except Stop Place := do
  let (_, rest) ← twoDigits 0 23 input
  let rest ← expect [':'] rest
  commit do
    let (_, rest) ← twoDigits 0 59 rest
    let rest ← expect [':'] rest
    let (_, rest) ← twoDigits 0 60 rest
    return secondParts rest

/-- What is left behind the distance from universal time, if it is given. -/
def offset (input : Place) : Except Stop Place :=
  match input with
  | 'Z' :: rest | 'z' :: rest => .ok rest
  | '+' :: rest | '-' :: rest => commit do
    let (_, rest) ← twoDigits 0 23 rest
    let rest ← expect [':'] rest
    let (_, rest) ← twoDigits 0 59 rest
    return rest
  | _ => .ok input

/-- What is left behind a time that follows a date, if one does. -/
def timeOfDate (input : Place) : Except Stop Place :=
  match input with
  | 'T' :: rest | 't' :: rest | ' ' :: rest =>
    match time rest with
    | .ok rest => offset rest
    | .error stop => if stop.final then .error stop else .ok input
  | _ => .ok input

/-- What is left behind a date, a time, or both with a letter or a blank between them. -/
def moment (input : Place) : Except Stop Place :=
  match date input with
  | .ok rest => timeOfDate rest
  | .error stop => if stop.final then .error stop else time input

end Toml.Scan

end BookmarkGraph
