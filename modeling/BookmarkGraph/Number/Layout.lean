import BookmarkGraph.Number.Shortest

/-!
# Laying out a double as text

Which digits stand for a double is settled by `Double.shortest`. A `Layout` holds the remaining
decisions of an output format: where positional notation ends, what marks a whole number, how an
exponent is signed, and the words for the values that have no digits.
-/

namespace BookmarkGraph

/-- The decisions of an output format about doubles. -/
structure Layout where
  /-- Which of two equally near candidates is written. -/
  tie : TieRule
  /-- The least exponent of scientific form that is still written positionally, and the least one
  above it that no longer is; every exponent is positional when there is no such range. -/
  positional : Option (Int × Int)
  /-- What follows the digits of a whole number in positional form. -/
  wholeMark : String
  /-- The sign of a positive exponent. -/
  plus : String
  /-- The text of every NaN. -/
  notANumber : String
  /-- The text of positive infinity. -/
  infinity : String
  /-- The text of negative infinity. -/
  negativeInfinity : String

namespace Layout

/-- Positional form of a decimal: zeros fill the places between the digits and the point. -/
def positionalText (layout : Layout) (d : Decimal) : String :=
  let digits := (toString d.digits).toList
  match d.exponent with
  | .ofNat e => String.ofList (digits ++ List.replicate e '0') ++ layout.wholeMark
  | .negSucc e =>
    let places := e + 1
    let padded := List.replicate (places + 1 - digits.length) '0' ++ digits
    let whole := padded.length - places
    String.ofList (padded.take whole ++ '.' :: padded.drop whole)

/-- Scientific form: one digit, the others after a point, then the exponent. -/
def scientificText (layout : Layout) (d : Decimal) (power : Int) : String :=
  let mantissa :=
    match (toString d.digits).toList with
    | first :: second :: rest => String.ofList (first :: '.' :: second :: rest)
    | few => String.ofList few
  let sign := if power < 0 then "-" else layout.plus
  mantissa ++ "e" ++ sign ++ toString power.natAbs

/-- The text of a positive decimal. -/
def decimalText (layout : Layout) (d : Decimal) : String :=
  let power := d.exponent + ((toString d.digits).length : Int) - 1
  match layout.positional with
  | none => layout.positionalText d
  | some (least, bound) =>
    if least ≤ power && power < bound then layout.positionalText d
    else layout.scientificText d power

def text (layout : Layout) (x : Double) : String :=
  if x.isNaN then layout.notANumber
  else if x.isInfinite then
    if x.isNegative then layout.negativeInfinity else layout.infinity
  else
    let magnitude :=
      if x.units = 0 then "0" ++ layout.wholeMark
      else layout.decimalText (x.shortest layout.tie)
    if x.isNegative then "-" ++ magnitude else magnitude

end Layout

end BookmarkGraph
