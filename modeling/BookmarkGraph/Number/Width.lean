/-!
# The range of signed numbers

Whole numbers are kept in 64 bits, with or without a sign. Without one they end below `UInt64.size`;
a sign takes one bit, so that half as many are left on either side of zero.
-/

namespace BookmarkGraph

/-- The least natural number that is too large for 64 bits with a sign. Its opposite is the least
integer that fits. -/
abbrev signedLimit : Nat := 0x8000000000000000

end BookmarkGraph
