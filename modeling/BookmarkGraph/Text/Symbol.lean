/-!
# Symbols of a document

A document is read from bytes that should encode characters in UTF-8. A `Symbol` is one character of
it, or a single byte at which no well-formed character begins; reading goes on behind such a byte,
so a stray byte never hides the characters after it.
-/

namespace BookmarkGraph

/-- A character of a document, or `none` for a byte at which none begins. -/
abbrev Symbol := Option Char

namespace Symbol

def ofString (text : String) : List Symbol := text.toList.map some

/-- The number of bytes that a symbol stands for. -/
def width : Symbol → Nat
  | none => 1
  | some c => c.utf8Size

/-- The payload of a continuation byte. -/
def continuation? (byte : UInt8) : Option Nat :=
  if byte.toNat / 64 = 2 then some (byte.toNat % 64) else none

/-- A character that needs at least `least` as its code point to have this encoding. -/
def checked (least code : Nat) : Symbol :=
  if least ≤ code && code.isValidChar then some (Char.ofNat code) else none

/-- The character that begins a list of bytes, if there is one. -/
def first (bytes : List UInt8) : Symbol :=
  match bytes with
  | [] => none
  | a :: rest =>
    if a.toNat < 128 then some (Char.ofNat a.toNat)
    else if a.toNat / 32 = 6 then
      match rest.map continuation? with
      | some b :: _ => checked 0x80 (a.toNat % 32 * 64 + b)
      | _ => none
    else if a.toNat / 16 = 14 then
      match rest.map continuation? with
      | some b :: some c :: _ => checked 0x800 ((a.toNat % 16 * 64 + b) * 64 + c)
      | _ => none
    else if a.toNat / 8 = 30 then
      match rest.map continuation? with
      | some b :: some c :: some d :: _ =>
        checked 0x10000 (((a.toNat % 8 * 64 + b) * 64 + c) * 64 + d)
      | _ => none
    else none

/-- The symbols of a list of bytes. -/
def ofBytes (bytes : List UInt8) : List Symbol :=
  match bytes with
  | [] => []
  | byte :: rest =>
    let symbol := first ((byte :: rest).take 4)
    symbol :: ofBytes (rest.drop (symbol.width - 1))
termination_by bytes.length
decreasing_by
  simp only [List.length_drop, List.length_cons]
  omega

end Symbol

end BookmarkGraph
