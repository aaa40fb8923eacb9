/-!
# Runs of code points

A property of characters is given by the ascending code points at which it begins or ends to hold.
-/

namespace BookmarkGraph.Runs

/-- Whether a code point lies in one of the runs that a list of bounds describes. -/
def contains (bounds : List Nat) (code : Nat) : Bool :=
  (bounds.takeWhile (· ≤ code)).length % 2 = 1

end BookmarkGraph.Runs
