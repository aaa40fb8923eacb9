import BookmarkGraph.Number.Double

/-!
# Scaling by a power of ten

A decimal text is read as an integer significand and a power of ten. The significand is rounded to a
double first and then multiplied or divided by the double nearest to the power, which is one
rounding more than the nearest double needs but exact for numbers of ordinary length. Powers beyond
the range of doubles are applied in parts.
-/

namespace BookmarkGraph.Double

/-- The greatest power of ten in the range of doubles. -/
def greatestPower : Nat := 308

def powerOfTen (n : Nat) : Double := ofNat (Nat.pow 10 n)

/-- A non-negative double times a power of ten, or `none` when it is too large. -/
def scaleByTen (x : Double) (exponent : Int) : Option Double :=
  if _h : exponent.natAbs ≤ greatestPower then
    if 0 ≤ exponent then
      let product := x.mul (powerOfTen exponent.natAbs)
      if product.isInfinite then none else some product
    else some (x.div (powerOfTen exponent.natAbs))
  else if x.units = 0 then some x
  else if 0 ≤ exponent then none
  else (x.div (powerOfTen greatestPower)).scaleByTen (exponent + greatestPower)
termination_by exponent.natAbs
decreasing_by unfold greatestPower at *; omega

end BookmarkGraph.Double
