import BookmarkGraph.Text.Numeral

/-!
# Numbers read back from their digits

A natural number is written in decimal digits without leading zeros. Reading these digits gives the
number again, provided that it fits the width that is asked for.

The readers take other spellings, too: zeros may stand in front, and a sign where a width is asked
for. `Spells`, `SpellsUnsigned` and `SpellsSigned` say which texts they take, and for what.
-/

namespace BookmarkGraph.Numeral

theorem accumulate_eq_ofDigitChars {digits : List Char} (h : ∀ c ∈ digits, c.isDigit)
    (value : Nat) :
    accumulate value digits = some (Nat.ofDigitChars 10 digits value) := by
  induction digits generalizing value with
  | nil => rfl
  | cons c rest ih =>
    have hc : digitValue? c = some (c.toNat - '0'.toNat) := if_pos (h c List.mem_cons_self)
    rw [accumulate, hc, Option.bind_some, ih fun d hd ↦ h d (List.mem_cons_of_mem c hd),
      Nat.ofDigitChars_cons]

theorem natural?_toDigits (n : Nat) : natural? (Nat.toDigits 10 n) = some n := by
  have hdigits : ∀ c ∈ Nat.toDigits 10 n, c.isDigit := fun c hc ↦
    Nat.isDigit_of_mem_toDigits (by decide) (by decide) hc
  have hread : accumulate 0 (Nat.toDigits 10 n) = some n := by
    rw [accumulate_eq_ofDigitChars hdigits, Nat.ofDigitChars_ten_toDigits]
  cases hlist : Nat.toDigits 10 n with
  | nil => exact absurd hlist Nat.toDigits_ne_nil
  | cons c rest =>
    rw [natural?, ← hlist]
    · exact hread
    · exact List.cons_ne_nil c rest

theorem head?_toDigits {n : Nat} (hn : 0 < n) : (Nat.toDigits 10 n).head? ≠ some '0' := by
  induction n using Nat.strongRecOn with
  | ind n ih =>
    rw [Nat.toDigits_eq_if (by decide)]
    split
    · rename_i hlt
      have hall : ∀ n < 10, 0 < n → [Nat.digitChar n].head? ≠ some '0' := by decide
      exact hall n hlt hn
    · have hhead := ih (n / 10) (by omega) (by omega)
      obtain ⟨c, cs, hdigits⟩ := List.exists_cons_of_ne_nil (Nat.toDigits_ne_nil (n := n / 10))
      rw [hdigits] at hhead ⊢
      exact hhead

theorem unsigned64?_toString {n : Nat} (h : n < UInt64.size) :
    unsigned64? (toString n) = some (UInt64.ofNat n) := by
  rw [unsigned64?, Nat.toString_eq_ofList_toDigits, String.toList_ofList]
  split
  · rename_i rest hlist
    -- a digit is no sign
    have hplus : '+' ∈ Nat.toDigits 10 n := by rw [hlist]; exact List.mem_cons_self
    exact absurd (Nat.isDigit_of_mem_toDigits (by decide) (by decide) hplus) (by decide)
  · rw [natural?_toDigits, Option.bind_some, if_pos h]

/-! ## Spellings -/

/-- Digits that make a number. -/
structure Spells (cs : List Char) (n : Nat) : Prop where
  /-- There is a digit. -/
  ne_nil : cs ≠ []
  /-- There is nothing else. -/
  digits : ∀ c ∈ cs, c.isDigit
  /-- The digits make the number. -/
  value : Nat.ofDigitChars 10 cs 0 = n

/-- Digits that make a number of 64 bits, with a plus sign at most. -/
inductive SpellsUnsigned : List Char → UInt64 → Prop
  | bare {cs : List Char} {n : Nat} : Spells cs n → n < UInt64.size →
    SpellsUnsigned cs (UInt64.ofNat n)
  | plus {cs : List Char} {n : Nat} : Spells cs n → n < UInt64.size →
    SpellsUnsigned ('+' :: cs) (UInt64.ofNat n)

/-- Digits that make a number of 64 bits with a sign, and a sign at most. -/
inductive SpellsSigned : List Char → Int64 → Prop
  | bare {cs : List Char} {n : Nat} : Spells cs n → n < signedLimit →
    SpellsSigned cs (Int64.ofNat n)
  | plus {cs : List Char} {n : Nat} : Spells cs n → n < signedLimit →
    SpellsSigned ('+' :: cs) (Int64.ofNat n)
  | minus {cs : List Char} {n : Nat} : Spells cs n → n ≤ signedLimit →
    SpellsSigned ('-' :: cs) (Int64.ofInt (-n))

section Spellings

variable {c : Char} {cs : List Char} {n m : Nat}

theorem digitValue?_eq_some (h : digitValue? c = some n) :
    c.isDigit = true ∧ c.toNat - '0'.toNat = n := by
  rw [digitValue?] at h
  split at h
  · rename_i hc
    exact ⟨hc, Option.some.inj h⟩
  · cases h

theorem isDigit_of_accumulate (h : accumulate m cs = some n) : ∀ c ∈ cs, c.isDigit := by
  induction cs generalizing m with
  | nil => exact fun c hc ↦ absurd hc List.not_mem_nil
  | cons c rest ih =>
    rw [accumulate] at h
    obtain ⟨digit, hdigit, hrest⟩ := Option.bind_eq_some_iff.mp h
    exact List.forall_mem_cons.mpr ⟨(digitValue?_eq_some hdigit).1, ih hrest⟩

theorem natural?_eq_accumulate (h : cs ≠ []) : natural? cs = accumulate 0 cs := by
  cases cs with
  | nil => exact absurd rfl h
  | cons c rest => rfl

theorem natural?_eq_some : natural? cs = some n ↔ Spells cs n := by
  constructor
  · intro h
    have hne : cs ≠ [] := by
      rintro rfl
      cases h
    rw [natural?_eq_accumulate hne] at h
    have hdigits := isDigit_of_accumulate h
    rw [accumulate_eq_ofDigitChars hdigits] at h
    exact ⟨hne, hdigits, Option.some.inj h⟩
  · rintro ⟨hne, hdigits, rfl⟩
    rw [natural?_eq_accumulate hne, accumulate_eq_ofDigitChars hdigits]

theorem spells_toDigits (n : Nat) : Spells (Nat.toDigits 10 n) n :=
  natural?_eq_some.mp (natural?_toDigits n)

theorem not_spells_cons (hc : c.isDigit = false) : ¬Spells (c :: cs) n := fun h ↦
  Bool.false_ne_true (hc.symm.trans (h.digits c List.mem_cons_self))

theorem natural?_bind_eq_some {α : Type} {p : Nat → Prop} [DecidablePred p] {f : Nat → α} {a : α} :
    ((natural? cs).bind fun n ↦ if p n then some (f n) else none) = some a
      ↔ ∃ n, Spells cs n ∧ p n ∧ f n = a := by
  rw [Option.bind_eq_some_iff]
  refine exists_congr fun n ↦ and_congr natural?_eq_some ?_
  rw [Option.ite_none_right_eq_some, Option.some.injEq]

theorem unsigned64?_eq_some {text : List Char} {u : UInt64} :
    unsigned64? (String.ofList text) = some u ↔ SpellsUnsigned text u := by
  rw [unsigned64?, String.toList_ofList]
  split
  · rename_i rest
    refine natural?_bind_eq_some.trans ⟨?_, ?_⟩
    · rintro ⟨n, hn, hsize, rfl⟩
      exact .plus hn hsize
    · rintro (⟨hn, -⟩ | ⟨hn, hsize⟩)
      · exact absurd hn (not_spells_cons rfl)
      · exact ⟨_, hn, hsize, rfl⟩
  · rename_i hplus
    refine natural?_bind_eq_some.trans ⟨?_, ?_⟩
    · rintro ⟨n, hn, hsize, rfl⟩
      exact .bare hn hsize
    · rintro (⟨hn, hsize⟩ | ⟨-, -⟩)
      · exact ⟨_, hn, hsize, rfl⟩
      · exact absurd rfl (hplus _)

theorem signed64?_eq_some {text : List Char} {i : Int64} :
    signed64? (String.ofList text) = some i ↔ SpellsSigned text i := by
  rw [signed64?, String.toList_ofList]
  split
  · refine natural?_bind_eq_some.trans ⟨?_, ?_⟩
    · rintro ⟨n, hn, hsize, rfl⟩
      exact .minus hn hsize
    · rintro (⟨hn, -⟩ | _ | ⟨hn, hsize⟩)
      · exact absurd hn (not_spells_cons rfl)
      · exact ⟨_, hn, hsize, rfl⟩
  · refine natural?_bind_eq_some.trans ⟨?_, ?_⟩
    · rintro ⟨n, hn, hsize, rfl⟩
      exact .plus hn hsize
    · rintro (⟨hn, -⟩ | ⟨hn, hsize⟩ | _)
      · exact absurd hn (not_spells_cons rfl)
      · exact ⟨_, hn, hsize, rfl⟩
  · rename_i hminus hplus
    refine natural?_bind_eq_some.trans ⟨?_, ?_⟩
    · rintro ⟨n, hn, hsize, rfl⟩
      exact .bare hn hsize
    · rintro (⟨hn, hsize⟩ | ⟨-, -⟩ | ⟨-, -⟩)
      · exact ⟨_, hn, hsize, rfl⟩
      · exact absurd rfl (hplus _)
      · exact absurd rfl (hminus _)

/-- The digits of an integer, behind a sign if it is negative. -/
theorem toList_toString_int (i : Int) : (toString i).toList
    = if 0 ≤ i then Nat.toDigits 10 i.natAbs else '-' :: Nat.toDigits 10 i.natAbs := by
  cases i with
  | ofNat n =>
    have hsign : 0 ≤ Int.ofNat n := Int.natCast_nonneg n
    have htext : toString (Int.ofNat n) = toString n := rfl
    rw [if_pos hsign, htext, Nat.toString_eq_ofList_toDigits, String.toList_ofList]
    rfl
  | negSucc n =>
    have htext : toString (Int.negSucc n) = "-" ++ toString (n + 1) := rfl
    rw [if_neg (by omega), htext, String.toList_append, Nat.toString_eq_ofList_toDigits]
    exact congrArg ('-' :: ·) String.toList_ofList

theorem spellsSigned_toString (i : Int64) : SpellsSigned (toString i.toInt).toList i := by
  have hlow : -(signedLimit : Int) ≤ i.toInt := i.le_toInt
  have hhigh : i.toInt < (signedLimit : Int) := i.toInt_lt
  have hdigits := spells_toDigits i.toInt.natAbs
  rw [toList_toString_int]
  split
  · rename_i hsign
    have hi : Int64.ofNat i.toInt.natAbs = i := by
      rw [← Int64.ofInt_eq_ofNat, Int.natAbs_of_nonneg hsign, Int64.ofInt_toInt]
    have hspells := SpellsSigned.bare hdigits (by omega)
    rwa [hi] at hspells
  · rename_i hsign
    have hi : Int64.ofInt (-i.toInt.natAbs) = i := by
      rw [Int.ofNat_natAbs_of_nonpos (by omega), Int.neg_neg, Int64.ofInt_toInt]
    have hspells := SpellsSigned.minus hdigits (by omega)
    rwa [hi] at hspells

end Spellings

end BookmarkGraph.Numeral
