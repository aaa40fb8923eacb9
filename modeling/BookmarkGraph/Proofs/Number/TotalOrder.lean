import BookmarkGraph.Number.Double

/-!
# The total order of doubles

All bit patterns have a place in one order, NaNs and both zeros with them. A pattern with the sign
bit is below one without it; without the sign the larger bits are above, and with the sign they are
below. `Double.rank` counts the patterns from the lowest one on, so no two have the same rank.

Zero has two patterns of which `-0` is below `0`.
-/

namespace BookmarkGraph.Double

variable {x y : Double}

/-- The first double is below the second one in the total order. -/
inductive Below (x y : Double) : Prop where
  /-- The sign decides. -/
  | sign (hx : x.isNegative = true) (hy : y.isNegative = false)
  /-- Of two doubles without the sign the one with the smaller bits is below. -/
  | positive (hx : x.isNegative = false) (hy : y.isNegative = false) (h : x.bits < y.bits)
  /-- Of two doubles with the sign the one with the larger bits is below. -/
  | negative (hx : x.isNegative = true) (hy : y.isNegative = true) (h : y.bits < x.bits)

/-! ## Ranks -/

theorem signBit_le (h : x.isNegative = true) : signBit ≤ x.bits.toNat := of_decide_eq_true h

theorem rank_of_positive (h : x.isNegative = false) : x.rank = signBit + x.bits.toNat := by
  rw [rank, if_neg (Bool.eq_false_iff.mp h)]

theorem rank_of_negative (h : x.isNegative = true) : x.rank + x.bits.toNat + 1 = UInt64.size := by
  have hbits := x.bits.toNat_lt_size
  rw [rank, if_pos h]
  omega

/-- Without the sign a double ranks above all doubles that have it. -/
theorem rank_lt_signBit_iff : x.rank < signBit ↔ x.isNegative = true := by
  have hsize : UInt64.size = signBit + signBit := rfl
  cases hx : x.isNegative with
  | false =>
    have hrank := rank_of_positive hx
    exact ⟨fun hlt ↦ by omega, nofun⟩
  | true =>
    have hrank := rank_of_negative hx
    have hbits := signBit_le hx
    exact ⟨fun _ ↦ rfl, fun _ ↦ by omega⟩

/-- A lower rank is a lower place in the total order. -/
theorem rank_lt_rank : x.rank < y.rank ↔ x.Below y := by
  have hsignx := rank_lt_signBit_iff (x := x)
  have hsigny := rank_lt_signBit_iff (x := y)
  constructor
  · intro hlt
    cases hx : x.isNegative with
    | false =>
      have hy : y.isNegative = false := by
        rw [← Bool.not_eq_true, ← hsigny]
        rw [← Bool.not_eq_true, ← hsignx] at hx
        omega
      rw [rank_of_positive hx, rank_of_positive hy] at hlt
      exact .positive hx hy (UInt64.lt_iff_toNat_lt.mpr (Nat.lt_of_add_lt_add_left hlt))
    | true =>
      cases hy : y.isNegative with
      | false => exact .sign hx hy
      | true =>
        have hrankx := rank_of_negative hx
        have hranky := rank_of_negative hy
        exact .negative hx hy (UInt64.lt_iff_toNat_lt.mpr (by omega))
  · rintro (⟨hx, hy⟩ | ⟨hx, hy, h⟩ | ⟨hx, hy, h⟩)
    · rw [← hsignx] at hx
      rw [← Bool.not_eq_true, ← hsigny] at hy
      omega
    · rw [rank_of_positive hx, rank_of_positive hy]
      exact Nat.add_lt_add_left (UInt64.lt_iff_toNat_lt.mp h) _
    · have hrankx := rank_of_negative hx
      have hranky := rank_of_negative hy
      have hbits := UInt64.lt_iff_toNat_lt.mp h
      omega

instance : Decidable (x.Below y) := decidable_of_iff _ rank_lt_rank

theorem rank_injective (h : x.rank = y.rank) : x = y := by
  have hbits : x.bits.toNat = y.bits.toNat := by
    cases hx : x.isNegative with
    | false =>
      have hy : y.isNegative = false := by
        rw [← Bool.not_eq_true, ← rank_lt_signBit_iff, ← h, rank_lt_signBit_iff, hx]
        exact Bool.false_ne_true
      rw [rank_of_positive hx, rank_of_positive hy] at h
      exact Nat.add_left_cancel h
    | true =>
      have hy : y.isNegative = true := by rw [← rank_lt_signBit_iff, ← h, rank_lt_signBit_iff, hx]
      have hrankx := rank_of_negative hx
      have hranky := rank_of_negative hy
      omega
  cases x
  cases y
  exact congrArg mk (UInt64.toNat_inj.mp hbits)

end BookmarkGraph.Double
