import BookmarkGraph.Number.Double
import Mathlib.Algebra.Ring.Nat
import Mathlib.Order.Nat

/-!
# Whole numbers as doubles

A natural number below `2⁵³` fits the significand of a double, so nothing is rounded away when it is
taken for one: the double has exactly that many ones, sums of such doubles are the doubles of the
sums, and their total order is the order of the numbers. A count of votes that is kept as a double
is therefore a count.

The exponent of the double of `n` is fixed by the place `k` of the leading bit of `n`. All fields
follow from `toNat_bits_whole`, which gives the bits in terms of `k`.
-/

namespace BookmarkGraph.Double

theorem leadingBit_eq : leadingBit = 4503599627370496 := rfl

theorem signBit_eq : signBit = 9223372036854775808 := rfl

theorem unitsPerOne_eq {a b : Nat} (h : a + b = 1074) : unitsPerOne = 2 ^ a * 2 ^ b := by
  rw [← Nat.pow_add, h, unitsPerOne, Nat.one_shiftLeft]

theorem unitsPerOne_pos : 0 < unitsPerOne := by
  obtain ⟨a, b, h⟩ : ∃ a b, a + b = 1074 := ⟨0, _, Nat.zero_add _⟩
  rw [unitsPerOne_eq h]
  exact Nat.mul_pos (Nat.two_pow_pos a) (Nat.two_pow_pos b)

/-! ## Bits -/

theorem roundDiv_mul (n : Nat) {d : Nat} (hd : 0 < d) : roundDiv (n * d) d = n := by
  have hrest : n * d % d = 0 := Nat.mul_mod_left n d
  simp [roundDiv, hrest, Nat.mul_div_cancel n hd, hd]

theorem magnitudeBits_aligned {a s : Nat} (hlow : leadingBit ≤ a) (hhigh : a < 2 * leadingBit)
    (hs : s ≤ 2045) : magnitudeBits (a * 2 ^ s) 1 = s * leadingBit + a := by
  have hpos : 0 < 2 ^ s := Nat.two_pow_pos s
  have hlog : (a * 2 ^ s).log2 = 52 + s := by
    rw [Nat.log2_eq_iff (Nat.mul_pos (Nat.lt_of_lt_of_le (by decide) hlow) hpos).ne',
      Nat.add_right_comm, Nat.pow_add, Nat.pow_add]
    exact ⟨Nat.mul_le_mul_right _ hlow, Nat.mul_lt_mul_of_pos_right hhigh hpos⟩
  have hdoublings : 52 + s - 52 = s := Nat.add_sub_cancel_left 52 s
  have hbound : s * leadingBit + a ≤ 2047 * leadingBit := by
    rw [leadingBit_eq] at *
    omega
  simp only [magnitudeBits, Nat.div_one, hlog, hdoublings, Nat.one_shiftLeft]
  rw [roundDiv_mul _ hpos, Nat.min_eq_left hbound]

variable {n k : Nat}

/-- A number whose leading bit is at place `k`, moved up until the leading bit is at place 52. -/
theorem aligned_bounds (hlow : 2 ^ k ≤ n) (hhigh : n < 2 ^ (k + 1)) (hk : k ≤ 52) :
    leadingBit ≤ n * 2 ^ (52 - k) ∧ n * 2 ^ (52 - k) < 2 * leadingBit := by
  have hpower : 2 ^ k * 2 ^ (52 - k) = leadingBit := by
    rw [← Nat.pow_add, Nat.add_sub_cancel' hk]
  have hpower' : 2 ^ (k + 1) * 2 ^ (52 - k) = 2 * leadingBit := by
    rw [Nat.pow_succ, Nat.mul_right_comm, hpower, Nat.mul_comm]
  rw [← hpower', ← hpower]
  exact ⟨Nat.mul_le_mul_right _ hlow, Nat.mul_lt_mul_of_pos_right hhigh (Nat.two_pow_pos _)⟩

theorem toNat_bits_whole (hlow : 2 ^ k ≤ n) (hhigh : n < 2 ^ (k + 1)) (hk : k ≤ 52) :
    (ofNat n).bits.toNat = (k + 1022) * leadingBit + n * 2 ^ (52 - k) := by
  obtain ⟨hleast, hsmall⟩ := aligned_bounds hlow hhigh hk
  have hbits : magnitudeBits (n * unitsPerOne) 1
      = (k + 1022) * leadingBit + n * 2 ^ (52 - k) := by
    rw [unitsPerOne_eq (show 52 - k + (k + 1022) = 1074 by omega), ← Nat.mul_assoc,
      magnitudeBits_aligned hleast hsmall (by omega)]
  have hword : (k + 1022) * leadingBit + n * 2 ^ (52 - k) < UInt64.size := by
    rw [leadingBit_eq] at *
    exact Nat.lt_trans (show _ < 2047 * 4503599627370496 by omega) (by decide)
  rw [ofNat, ofUnits, if_neg Bool.false_ne_true, Nat.zero_add, hbits,
    UInt64.toNat_ofNat_of_lt' hword]

theorem ofNat_zero : ofNat 0 = ⟨0⟩ := by
  rw [ofNat, Nat.zero_mul]
  decide

theorem exists_leading (hpos : 0 < n) (h : n < 2 ^ 53) :
    ∃ k ≤ 52, 2 ^ k ≤ n ∧ n < 2 ^ (k + 1) := by
  have hlog := (Nat.log2_lt hpos.ne').mpr h
  exact ⟨n.log2, Nat.lt_succ_iff.mp hlog, Nat.log2_self_le hpos.ne', Nat.lt_log2_self⟩

/-! ## Values -/

/-- The double is worth so many ones. -/
structure Counts (x : Double) (n : Nat) : Prop where
  /-- The double is no NaN. -/
  isNaN_eq : x.isNaN = false
  /-- The double is no infinity. -/
  isInfinite_eq : x.isInfinite = false
  /-- The double has no sign. -/
  isNegative_eq : x.isNegative = false
  /-- The double is worth `n` ones. -/
  units_eq : x.units = n * unitsPerOne

theorem counts_ofNat (h : n < 2 ^ 53) : (ofNat n).Counts n := by
  rcases Nat.eq_zero_or_pos n with rfl | hpos
  · rw [ofNat_zero]
    exact ⟨by decide, by decide, by decide, by rw [Nat.zero_mul]; decide⟩
  · obtain ⟨k, hk, hlow, hhigh⟩ := exists_leading hpos h
    obtain ⟨hleast, hsmall⟩ := aligned_bounds hlow hhigh hk
    have hbits := toNat_bits_whole hlow hhigh hk
    rw [leadingBit_eq] at hleast hsmall hbits
    have hexponent : (ofNat n).exponentField = k + 1023 := by
      rw [exponentField, hbits, leadingBit_eq]
      omega
    have hfraction : (ofNat n).fraction = n * 2 ^ (52 - k) - 4503599627370496 := by
      rw [fraction, hbits, leadingBit_eq]
      omega
    have hsignificand : (ofNat n).significand = n * 2 ^ (52 - k) := by
      rw [significand, hexponent, if_neg (Nat.succ_ne_zero _), hfraction, leadingBit_eq]
      exact Nat.sub_add_cancel hleast
    have hfinite : k + 1023 ≠ 2047 := by omega
    refine ⟨?_, ?_, ?_, ?_⟩
    · simp [isNaN, hexponent, hfinite]
    · simp [isInfinite, hexponent, hfinite]
    · rw [isNegative, hbits, decide_eq_false_iff_not, signBit_eq]
      omega
    · rw [units, hsignificand, scale, hexponent, Nat.shiftLeft_eq, Nat.mul_assoc,
        unitsPerOne_eq (show 52 - k + (k + 1023 - 1) = 1074 by omega)]

/-- Below `2⁵³` doubles are added as numbers are. -/
theorem ofNat_add_ofNat {m : Nat} (hm : m < 2 ^ 53) (hn : n < 2 ^ 53) (hpos : 0 < m + n) :
    (ofNat m).add (ofNat n) = ofNat (m + n) := by
  have hcm := counts_ofNat hm
  have hcn := counts_ofNat hn
  have hsum : (ofNat m).signedUnits + (ofNat n).signedUnits
      = (((m + n) * unitsPerOne : Nat) : Int) := by
    rw [signedUnits, hcm.isNegative_eq, hcm.units_eq, signedUnits, hcn.isNegative_eq, hcn.units_eq,
      Nat.add_mul]
    rfl
  have hunits : 0 < (m + n) * unitsPerOne := Nat.mul_pos hpos unitsPerOne_pos
  have hzero : ¬(((m + n) * unitsPerOne : Nat) : Int) = 0 := by omega
  have hsign : ¬(((m + n) * unitsPerOne : Nat) : Int) < 0 := by omega
  rw [add, hcm.isNaN_eq, hcn.isNaN_eq, hcm.isInfinite_eq, hcn.isInfinite_eq, hsum]
  simp only [Bool.false_eq_true, if_false, hzero, hsign, decide_false, Int.natAbs_natCast, ofNat]

/-! ## Order -/

theorem rank_of_lt (h : n < 2 ^ 53) : (ofNat n).rank = signBit + (ofNat n).bits.toNat := by
  rw [rank, (counts_ofNat h).isNegative_eq, if_neg Bool.false_ne_true]

theorem bits_ofNat_lt {m : Nat} (h : n < 2 ^ 53) (hlt : m < n) :
    (ofNat m).bits.toNat < (ofNat n).bits.toNat := by
  obtain ⟨k, hk, hlow, hhigh⟩ := exists_leading (Nat.zero_lt_of_lt hlt) h
  obtain ⟨hleast, -⟩ := aligned_bounds hlow hhigh hk
  rw [toNat_bits_whole hlow hhigh hk]
  rcases Nat.eq_zero_or_pos m with rfl | hpos
  · rw [ofNat_zero]
    exact Nat.lt_of_lt_of_le (Nat.lt_of_lt_of_le (by decide) hleast) (Nat.le_add_left _ _)
  · obtain ⟨j, hj, hlow', hhigh'⟩ := exists_leading hpos (Nat.lt_trans hlt h)
    obtain ⟨-, hsmall⟩ := aligned_bounds hlow' hhigh' hj
    rw [toNat_bits_whole hlow' hhigh' hj]
    rw [leadingBit_eq] at *
    -- a smaller number has its leading bit at an earlier place, or at the same place and less left
    rcases Nat.lt_trichotomy j k with hjk | rfl | hkj
    · omega
    · have haligned : m * 2 ^ (52 - j) < n * 2 ^ (52 - j) :=
        Nat.mul_lt_mul_of_pos_right hlt (Nat.two_pow_pos _)
      omega
    · have hpower : 2 ^ (k + 1) ≤ 2 ^ j := Nat.pow_le_pow_right (by decide) hkj
      omega

/-- Below `2⁵³` doubles rank as numbers do. -/
theorem rank_ofNat_le {m : Nat} (hm : m < 2 ^ 53) (hn : n < 2 ^ 53) :
    (ofNat m).rank ≤ (ofNat n).rank ↔ m ≤ n := by
  rw [rank_of_lt hm, rank_of_lt hn, Nat.add_le_add_iff_left]
  constructor
  · intro h
    by_contra hlt
    exact absurd (bits_ofNat_lt hm (Nat.not_le.mp hlt)) (Nat.not_lt.mpr h)
  · intro h
    rcases Nat.eq_or_lt_of_le h with rfl | hlt
    · exact Nat.le_refl _
    · exact (bits_ofNat_lt hn hlt).le

end BookmarkGraph.Double
