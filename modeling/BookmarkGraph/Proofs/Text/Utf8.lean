import BookmarkGraph.Text.Symbol

/-!
# Texts read from their bytes

A document arrives as bytes and is read as symbols. The bytes of a text in UTF-8 give back its
characters, one symbol for each of them and no stray bytes: `Symbol.ofBytes_utf8`.

There are as many cases as a character may have bytes. In each of them the first byte says by its
leading bits how many there are, and the payloads put together are the code point.
-/

namespace BookmarkGraph.Symbol

variable {c : Char}

theorem toNat_byte {n : Nat} (h : n < 256) : (UInt8.ofNat n).toNat = n :=
  UInt8.toNat_ofNat_of_lt' h

theorem continuation?_byte (n : Nat) :
    continuation? (UInt8.ofNat (n % 64 + 128)) = some (n % 64) := by
  rw [continuation?, toNat_byte (by omega), if_pos (by omega)]
  exact congrArg some (by omega)

theorem checked_toNat {least code : Nat} (hleast : least ≤ code) (hcode : code = c.toNat) :
    checked least code = some c := by
  have hvalid : (decide (least ≤ code) && decide code.isValidChar) = true := by
    rw [Bool.and_eq_true, decide_eq_true_eq, decide_eq_true_eq, hcode]
    exact ⟨hcode ▸ hleast, c.valid⟩
  rw [checked, if_pos hvalid, hcode, Char.ofNat_toNat]

/-! ## One character -/

theorem first_one (h : c.toNat ≤ 127) (rest : List UInt8) :
    first (UInt8.ofNat c.toNat :: rest) = some c := by
  rw [first, toNat_byte (by omega), if_pos (by omega), Char.ofNat_toNat]

theorem first_two (hlow : 127 < c.toNat) (hhigh : c.toNat ≤ 2047) (rest : List UInt8) :
    first (UInt8.ofNat (c.toNat / 64 % 32 + 192) :: UInt8.ofNat (c.toNat % 64 + 128) :: rest)
      = some c := by
  rw [first, toNat_byte (by omega), if_neg (by omega), if_pos (by omega)]
  simp only [List.map_cons, continuation?_byte]
  exact checked_toNat (by omega) (by omega)

theorem first_three (hlow : 2047 < c.toNat) (hhigh : c.toNat ≤ 65535) (rest : List UInt8) :
    first (UInt8.ofNat (c.toNat / 4096 % 16 + 224) :: UInt8.ofNat (c.toNat / 64 % 64 + 128)
      :: UInt8.ofNat (c.toNat % 64 + 128) :: rest) = some c := by
  rw [first, toNat_byte (by omega), if_neg (by omega), if_neg (by omega), if_pos (by omega)]
  simp only [List.map_cons, continuation?_byte]
  exact checked_toNat (by omega) (by omega)

theorem first_four (hlow : 65535 < c.toNat) (rest : List UInt8) :
    first (UInt8.ofNat (c.toNat / 262144 % 8 + 240) :: UInt8.ofNat (c.toNat / 4096 % 64 + 128)
      :: UInt8.ofNat (c.toNat / 64 % 64 + 128) :: UInt8.ofNat (c.toNat % 64 + 128) :: rest)
      = some c := by
  have hhigh : c.toNat < 0x110000 := by
    have hvalid : c.toNat.isValidChar := c.valid
    rw [Nat.isValidChar] at hvalid
    omega
  rw [first, toNat_byte (by omega), if_neg (by omega), if_neg (by omega), if_neg (by omega),
    if_pos (by omega)]
  simp only [List.map_cons, continuation?_byte]
  exact checked_toNat (by omega) (by omega)

/-- The bytes of a character begin with that character, whatever comes behind them. -/
theorem first_utf8EncodeChar (c : Char) (rest : List UInt8) :
    first ((String.utf8EncodeChar c ++ rest).take 4) = some c := by
  by_cases hone : c.toNat ≤ 127
  · have hbytes : String.utf8EncodeChar c = [UInt8.ofNat c.toNat] := if_pos hone
    rw [hbytes]
    exact first_one hone _
  by_cases htwo : c.toNat ≤ 2047
  · have hbytes : String.utf8EncodeChar c
        = [UInt8.ofNat (c.toNat / 64 % 32 + 192), UInt8.ofNat (c.toNat % 64 + 128)] :=
      (if_neg hone).trans (if_pos htwo)
    rw [hbytes]
    exact first_two (Nat.not_le.mp hone) htwo _
  by_cases hthree : c.toNat ≤ 65535
  · have hbytes : String.utf8EncodeChar c
        = [UInt8.ofNat (c.toNat / 4096 % 16 + 224), UInt8.ofNat (c.toNat / 64 % 64 + 128),
          UInt8.ofNat (c.toNat % 64 + 128)] :=
      (if_neg hone).trans ((if_neg htwo).trans (if_pos hthree))
    rw [hbytes]
    exact first_three (Nat.not_le.mp htwo) hthree _
  · have hbytes : String.utf8EncodeChar c
        = [UInt8.ofNat (c.toNat / 262144 % 8 + 240), UInt8.ofNat (c.toNat / 4096 % 64 + 128),
          UInt8.ofNat (c.toNat / 64 % 64 + 128), UInt8.ofNat (c.toNat % 64 + 128)] :=
      (if_neg hone).trans ((if_neg htwo).trans (if_neg hthree))
    rw [hbytes]
    exact first_four (Nat.not_le.mp hthree) _

/-! ## Texts -/

theorem ofBytes_utf8EncodeChar (c : Char) (rest : List UInt8) :
    ofBytes (String.utf8EncodeChar c ++ rest) = some c :: ofBytes rest := by
  have hlength : (String.utf8EncodeChar c).length = c.utf8Size := String.length_utf8EncodeChar c
  have hfirst := first_utf8EncodeChar c rest
  cases hbytes : String.utf8EncodeChar c with
  | nil =>
    rw [hbytes, List.length_nil] at hlength
    exact absurd hlength (Nat.ne_of_lt c.utf8Size_pos)
  | cons byte more =>
    rw [hbytes, List.cons_append] at hfirst
    rw [hbytes, List.length_cons] at hlength
    have hwidth : width (some c) - 1 = more.length := by
      rw [width, ← hlength, Nat.add_sub_cancel]
    rw [List.cons_append, ofBytes, hfirst, hwidth, List.drop_left]

theorem ofBytes_utf8 (text : String) : ofBytes text.toUTF8.data.toList = ofString text := by
  have hbytes : text.toUTF8.data.toList = text.toList.flatMap String.utf8EncodeChar := by
    rw [String.toUTF8, ← String.utf8Encode_toList, List.utf8Encode, List.data_toByteArray]
  rw [hbytes, ofString]
  induction text.toList with
  | nil => rw [List.flatMap_nil, ofBytes, List.map_nil]
  | cons c rest ih => rw [List.flatMap_cons, ofBytes_utf8EncodeChar, ih, List.map_cons]

end BookmarkGraph.Symbol
