import BookmarkGraph.Number.Double

/-!
# The fewest digits that read back

`Double.shortest` selects, for a positive finite double, a decimal `digits · 10 ^ exponent` with as
few digits as possible among those that round back to the double, and the nearest such decimal.
The reals that round to a double form an interval that ends halfway to its two neighbours, the ends
included exactly when the significand is even. For one, two, … seventeen digits the two points of
the decimal grid next to the value are tried against that interval; the first grid with a hit wins.

All comparisons are made on natural numbers: value, interval ends and candidates are brought to
quarter units by cross-multiplication.
-/

namespace BookmarkGraph

/-- A positive decimal number: `digits · 10 ^ exponent`. -/
structure Decimal where
  /-- The significant digits, read as one natural number. -/
  digits : Nat
  /-- The power of ten of the last digit. -/
  exponent : Int
deriving DecidableEq, Repr

/-- Which of two candidates is taken when the value lies exactly in the middle. -/
inductive TieRule where
  /-- The candidate farther from zero. -/
  | away
  /-- The candidate whose last digit is even. -/
  | even
deriving DecidableEq, Repr

namespace Decimal

/-- A decimal as a quotient of natural numbers of quarter units of `2⁻¹⁰⁷⁴`. -/
def quarterUnits (d : Decimal) : Nat × Nat :=
  match d.exponent with
  | .ofNat e => (d.digits * Nat.pow 10 e * (4 * Double.unitsPerOne), 1)
  | .negSucc e => (d.digits * (4 * Double.unitsPerOne), Nat.pow 10 (e + 1))

/-- The same decimal without trailing zeros in its digits. -/
def normalize (d : Decimal) : Decimal :=
  if h : 0 < d.digits ∧ d.digits % 10 = 0 then normalize ⟨d.digits / 10, d.exponent + 1⟩ else d
termination_by d.digits
decreasing_by omega

end Decimal

namespace Double

/-! ## The rounding interval -/

/-- The distance to the next larger double, in units. -/
def gap (x : Double) : Nat := 1 <<< x.scale

/-- At a power of two the next smaller double is only half a gap away, except where the
subnormal numbers begin. -/
def narrowBelow (x : Double) : Bool := x.fraction = 0 && 1 < x.exponentField

/-- The ends of the interval that rounds to a positive finite double, in quarter units. -/
def interval (x : Double) : Nat × Nat :=
  (4 * x.units - (if x.narrowBelow then x.gap else 2 * x.gap), 4 * x.units + 2 * x.gap)

/-- Whether a decimal rounds to the positive finite double `x`. -/
def readsBack (x : Double) (d : Decimal) : Bool :=
  let (num, den) := d.quarterUnits
  let (low, high) := x.interval
  if x.significand % 2 = 0 then low * den ≤ num && num ≤ high * den
  else low * den < num && num < high * den

/-! ## Selection -/

/-- The greatest whole multiple of `10 ^ exponent` that is at most the value of `x`. -/
def gridBelow (x : Double) (exponent : Int) : Nat :=
  match exponent with
  | .ofNat e => x.units / (Nat.pow 10 e * unitsPerOne)
  | .negSucc e => x.units * Nat.pow 10 (e + 1) / unitsPerOne

/-- Compares twice the value with the sum of a grid point and the next one: `.lt` when the lower
point is nearer. -/
def compareMiddle (x : Double) (below : Decimal) : Ordering :=
  let (num, den) := Decimal.quarterUnits ⟨2 * below.digits + 1, below.exponent⟩
  compare (8 * x.units * den) num

/-- The candidate on the grid of the given exponent, if one of its two points next to the value
reads back. -/
def candidate (tie : TieRule) (x : Double) (exponent : Int) : Option Decimal :=
  let below : Decimal := ⟨x.gridBelow exponent, exponent⟩
  let above : Decimal := ⟨below.digits + 1, exponent⟩
  match x.readsBack below, x.readsBack above with
  | false, false => none
  | true, false => some below
  | false, true => some above
  | true, true =>
    match x.compareMiddle below with
    | .lt => some below
    | .gt => some above
    | .eq =>
      match tie with
      | .away => some above
      | .even => some (if below.digits % 2 = 0 then below else above)

/-- The least power of ten above the value of a positive finite double. -/
def decimalPoint (x : Double) : Int :=
  let estimate : Int := ((x.units.log2 : Int) - 1074) * 30103 / 100000
  let above (k : Int) : Bool := x.gridBelow k = 0
  ((List.range 4).map fun (i : Nat) ↦ estimate - 1 + (i : Int)).find? above |>.getD (estimate + 3)

/-- The fewest digits that read back to a positive finite double, without trailing zeros. Seventeen
digits always suffice, so the exact value at the end is never needed. -/
def shortest (tie : TieRule) (x : Double) : Decimal :=
  let point := x.decimalPoint
  let grids := (List.range 17).map fun (n : Nat) ↦ point - 1 - (n : Int)
  let exact : Decimal := ⟨x.units * Nat.pow 10 1074 / unitsPerOne, -1074⟩
  ((grids.findSome? (x.candidate tie)).getD exact).normalize

end Double

end BookmarkGraph
