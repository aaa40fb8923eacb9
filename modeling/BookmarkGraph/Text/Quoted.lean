import BookmarkGraph.Text.Printable

/-!
# Texts in quotes

The quoted form of a text shows all of its characters: quotes and backslashes get a backslash,
the usual control characters a letter, and everything that cannot be shown as it is its code point
in hexadecimal digits between braces.
-/

namespace BookmarkGraph.Quoted

/-- The form of one character inside quotes. -/
def encodeChar (c : Char) : String :=
  match c with
  | '\x00' => "\\0"
  | '\t' => "\\t"
  | '\r' => "\\r"
  | '\n' => "\\n"
  | '"' => "\\\""
  | '\\' => "\\\\"
  | c =>
    if Printable.isPrintable c then String.singleton c
    else "\\u\x7b" ++ String.ofList (Nat.toDigits 16 c.toNat) ++ "\x7d"

def encode (text : String) : String :=
  "\"" ++ String.join (text.toList.map encodeChar) ++ "\""

end BookmarkGraph.Quoted
