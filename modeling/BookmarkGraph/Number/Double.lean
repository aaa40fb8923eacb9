/-!
# Binary64 numbers

A `Double` is its 64 bits, so two NaNs with different payloads are different numbers and the two
zeros are different too. Every finite double is a whole number of *units* of `2⁻¹⁰⁷⁴`, the least
positive double; arithmetic is done exactly on units, in `Nat` and `Int`, and rounded once.

## Contents

* `Double.units` and `Double.signedUnits`: the exact value of a finite double;
* `Double.ofUnits`: the double nearest to a quotient of units, ties going to an even significand;
* `Double.ofNat`, `Double.ofInt`, `Double.add`, `Double.mul`, `Double.div`: correctly rounded
  arithmetic;
* `Double.rank`: the place of a double in the total order of bit patterns, from the negative NaNs
  up to the positive ones.
-/

namespace BookmarkGraph

/-- A binary64 number, given by its bit pattern. -/
structure Double where
  /-- Sign, eleven exponent bits and fifty-two fraction bits, the sign first. -/
  bits : UInt64
deriving DecidableEq, Repr, Inhabited

namespace Double

/-! ## Fields -/

abbrev signBit : Nat := 0x8000000000000000

/-- The value of the lowest exponent bit, one more than the largest fraction. A normal number has it
as a leading one in front of its fraction. -/
abbrev leadingBit : Nat := 0x10000000000000

/-- Whether the sign bit is set, which it also is on `-0` and on half of the NaNs. -/
def isNegative (x : Double) : Bool := signBit ≤ x.bits.toNat

def exponentField (x : Double) : Nat := x.bits.toNat / leadingBit % 2048

def fraction (x : Double) : Nat := x.bits.toNat % leadingBit

/-- The largest exponent field marks infinities and NaNs. -/
def isFinite (x : Double) : Bool := x.exponentField < 2047

/-- An infinity has no fraction. -/
def isInfinite (x : Double) : Bool := x.exponentField = 2047 && x.fraction = 0

/-- A NaN keeps a payload in its fraction. -/
def isNaN (x : Double) : Bool := x.exponentField = 2047 && x.fraction ≠ 0

/-- The integer significand: normal numbers have a leading one before the fraction bits. -/
def significand (x : Double) : Nat :=
  if x.exponentField = 0 then x.fraction else x.fraction + leadingBit

/-- How often the significand is doubled to give the number of units. -/
def scale (x : Double) : Nat := x.exponentField - 1

/-- The absolute value of a finite double, counted in units of `2⁻¹⁰⁷⁴`. -/
def units (x : Double) : Nat := x.significand <<< x.scale

/-- The value of a finite double, counted in units of `2⁻¹⁰⁷⁴`. -/
def signedUnits (x : Double) : Int := if x.isNegative then -(x.units : Int) else x.units

def unitsPerOne : Nat := 1 <<< 1074

/-! ## Rounding -/

/-- The natural number nearest to `num / den`; of two equally near ones the even one. -/
def roundDiv (num den : Nat) : Nat :=
  let quotient := num / den
  let twice := 2 * (num % den)
  if twice < den || (twice = den && quotient % 2 = 0) then quotient else quotient + 1

/-- The bits, without a sign, of the double nearest to `num / den` units.

A significand that rounds up to `2⁵³` carries into the exponent field by itself, because the
fields are adjacent; what passes the largest finite double becomes infinity. -/
def magnitudeBits (num den : Nat) : Nat :=
  let doublings := (num / den).log2 - 52
  min (doublings * leadingBit + roundDiv num (den <<< doublings)) (2047 * leadingBit)

/-- The double nearest to `num / den` units with the given sign. -/
def ofUnits (negative : Bool) (num den : Nat) : Double :=
  ⟨UInt64.ofNat ((if negative then signBit else 0) + magnitudeBits num den)⟩

def ofNat (n : Nat) : Double := ofUnits false (n * unitsPerOne) 1

def ofInt (n : Int) : Double := ofUnits (n < 0) (n.natAbs * unitsPerOne) 1

/-- One as a double, the score of a single vote. -/
def one : Double := ofNat 1

/-! ## Arithmetic -/

/-- A NaN as arithmetic hands it on: the first fraction bit is set, the payload stays. -/
def quiet (x : Double) : Double := ⟨x.bits ||| 0x0008000000000000⟩

/-- The NaN of an operation that has no value. -/
def undefined : Double := ⟨0xFFF8000000000000⟩

def zero (negative : Bool) : Double := ⟨if negative then 0x8000000000000000 else 0⟩

def infinity (negative : Bool) : Double :=
  ⟨if negative then 0xFFF0000000000000 else 0x7FF0000000000000⟩

/-- The sum, correctly rounded. A NaN operand is handed on, the first one if both are NaN; a sum
of zero is negative only when both operands are. -/
def add (x y : Double) : Double :=
  if x.isNaN then x.quiet
  else if y.isNaN then y.quiet
  else if x.isInfinite then
    if y.isInfinite && x.isNegative != y.isNegative then undefined else x
  else if y.isInfinite then y
  else
    let sum := x.signedUnits + y.signedUnits
    if sum = 0 then zero (x.isNegative && y.isNegative) else ofUnits (sum < 0) sum.natAbs 1

/-- The product of two finite doubles, correctly rounded. -/
def mul (x y : Double) : Double :=
  ofUnits (x.isNegative != y.isNegative) (x.units * y.units) unitsPerOne

/-- The quotient of two finite doubles, the second not zero, correctly rounded. -/
def div (x y : Double) : Double :=
  ofUnits (x.isNegative != y.isNegative) (x.units * unitsPerOne) y.units

/-- The double with the opposite sign bit. -/
def neg (x : Double) : Double := ⟨x.bits ^^^ 0x8000000000000000⟩

/-! ## Order -/

/-- The place of a bit pattern in the total order: negative NaNs, negative infinity, negative
numbers, `-0`, `0`, positive numbers, positive infinity, positive NaNs. -/
def rank (x : Double) : Nat :=
  if x.isNegative then UInt64.size - 1 - x.bits.toNat else signBit + x.bits.toNat

end Double

end BookmarkGraph
