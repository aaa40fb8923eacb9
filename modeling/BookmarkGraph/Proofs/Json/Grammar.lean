import BookmarkGraph.Json.Reader

/-!
# The grammar of JSON texts

What counts as a JSON text is said here without a reader: by the ways to write blanks, characters
between quotes and numbers, and by `Form`, which puts values together from them. A value is skipped
by the reader exactly as far as it reaches, if only it is well-formed: `Form.skips`.

A text is a list of characters, and what the reader goes through is the same list as symbols. The
reader is given a bound instead of a measure; every character of a well-formed text costs it at
most one unit, so the length of the text is always enough. A number ends where no character can
continue it, so what stands behind a value has to stop numbers, as `Stops` says.
-/

namespace BookmarkGraph.Json

open Scan

/-! ## Blanks and separators -/

/-- Blanks, which may stand between the parts of a text. -/
def Blank (cs : List Char) : Prop := ∀ c ∈ cs, c = ' ' ∨ c = '\n' ∨ c = '\t' ∨ c = '\r'

/-- What stands in front of an element or a member: blanks, and a comma among them unless it is the
first one. -/
inductive Separates : Bool → List Char → Prop
  | first {ws : List Char} : Blank ws → Separates true ws
  | next {ws ws' : List Char} : Blank ws → Blank ws' → Separates false (ws ++ ',' :: ws')

/-! ## Texts in quotes -/

/-- A hexadecimal digit, small or capital, and its value. -/
def HexDigit (c : Char) (n : Nat) : Prop :=
  n < 16 ∧ (c = Nat.digitChar n ∨ c = (Nat.digitChar n).toUpper)

/-- Four hexadecimal digits and the code unit that they stand for. -/
inductive HexUnit : List Char → Nat → Prop
  | digits {a b c d : Char} {p q r s : Nat} :
    HexDigit a p → HexDigit b q → HexDigit c r → HexDigit d s →
    HexUnit [a, b, c, d] (((p * 16 + q) * 16 + r) * 16 + s)

/-- The letters that may stand behind a backslash, and the characters that they stand for. -/
def letters : List (Char × Char) :=
  [('"', '"'), ('\\', '\\'), ('/', '/'), ('b', '\x08'), ('f', '\x0c'), ('n', '\n'), ('r', '\r'),
    ('t', '\t')]

/-- A character that stands for itself between quotes. -/
def IsPlain (c : Char) : Prop := 0x20 ≤ c.toNat ∧ c ≠ '"' ∧ c ≠ '\\'

/-- The ways to write a character between quotes. -/
inductive WritesChar : Char → List Char → Prop
  | plain {c : Char} : IsPlain c → WritesChar c [c]
  | letter {l c : Char} : (l, c) ∈ letters → WritesChar c ['\\', l]
  | unit {c : Char} {cs : List Char} : HexUnit cs c.toNat → WritesChar c ('\\' :: 'u' :: cs)
  | pair {c : Char} {high low : Nat} {cs cs' : List Char} : HexUnit cs high → HexUnit cs' low →
    0xD800 ≤ high → high < 0xDC00 → 0xDC00 ≤ low → low < 0xE000 →
    c.toNat = 0x10000 + (high - 0xD800) * 0x400 + (low - 0xDC00) →
    WritesChar c ('\\' :: 'u' :: cs ++ '\\' :: 'u' :: cs')

/-- The ways to write characters between quotes, together with the closing quote. -/
inductive WritesChars : List Char → List Char → Prop
  | close : WritesChars [] ['"']
  | cons {c : Char} {rest cs text : List Char} :
    WritesChar c cs → WritesChars rest text → WritesChars (c :: rest) (cs ++ text)

/-- The ways to write a text in quotes. -/
inductive WritesText : String → List Char → Prop
  | quoted {s : String} {text : List Char} : WritesChars s.toList text → WritesText s ('"' :: text)

/-- What may stand for a character between quotes, if only the form counts. -/
inductive CharForm : List Char → Prop
  | plain {c : Char} : IsPlain c → CharForm [c]
  | letter {l c : Char} : (l, c) ∈ letters → CharForm ['\\', l]
  | unit {cs : List Char} {n : Nat} : HexUnit cs n → CharForm ('\\' :: 'u' :: cs)

/-- What may stand behind an opening quote, up to the closing one. -/
inductive TextForm : List Char → Prop
  | close : TextForm ['"']
  | cons {cs text : List Char} : CharForm cs → TextForm text → TextForm (cs ++ text)

/-! ## Numbers -/

def Digits (cs : List Char) : Prop := cs ≠ [] ∧ ∀ c ∈ cs, c.isDigit = true

/-- The part of a number before the point: a zero, or digits of which the first is no zero. -/
inductive WholeForm : List Char → Prop
  | zero : WholeForm ['0']
  | digits {cs : List Char} : Digits cs → cs.head? ≠ some '0' → WholeForm cs

inductive FractionForm : List Char → Prop
  | none : FractionForm []
  | digits {cs : List Char} : Digits cs → FractionForm ('.' :: cs)

inductive ExponentForm : List Char → Prop
  | none : ExponentForm []
  | digits {e : Char} {sign cs : List Char} : e = 'e' ∨ e = 'E' →
    sign = [] ∨ sign = ['+'] ∨ sign = ['-'] → Digits cs → ExponentForm (e :: sign ++ cs)

inductive NumeralForm : List Char → Prop
  | parts {whole fraction exponent : List Char} : WholeForm whole → FractionForm fraction →
    ExponentForm exponent → NumeralForm (whole ++ (fraction ++ exponent))

/-! ## Values -/

/-- The parts that JSON texts are put together from. -/
inductive Part where
  /-- A value. -/
  | value
  /-- The elements of an array up to the closing bracket, from the first one or from a later one. -/
  | elements (first : Bool)
  /-- The members of an object up to the closing brace, from the first one or from a later one. -/
  | members (first : Bool)

/-- The well-formed texts. -/
inductive Form : Part → List Char → Prop
  | null : Form .value ['n', 'u', 'l', 'l']
  | yes : Form .value ['t', 'r', 'u', 'e']
  | no : Form .value ['f', 'a', 'l', 's', 'e']
  | positive {cs : List Char} : NumeralForm cs → Form .value cs
  | negative {cs : List Char} : NumeralForm cs → Form .value ('-' :: cs)
  | text {cs : List Char} : TextForm cs → Form .value ('"' :: cs)
  | array {cs : List Char} : Form (.elements true) cs → Form .value ('[' :: cs)
  | object {cs : List Char} : Form (.members true) cs → Form .value ('\x7b' :: cs)
  | lastElement {first : Bool} {ws : List Char} : Blank ws → Form (.elements first) (ws ++ [']'])
  | element {first : Bool} {sep cs rest : List Char} : Separates first sep → Form .value cs →
    Form (.elements false) rest → Form (.elements first) (sep ++ (cs ++ rest))
  | lastMember {first : Bool} {ws : List Char} : Blank ws → Form (.members first) (ws ++ ['\x7d'])
  | member {first : Bool} {sep key ws ws' cs rest : List Char} : Separates first sep →
    TextForm key → Blank ws → Blank ws' → Form .value cs → Form (.members false) rest →
    Form (.members first) (sep ++ '"' :: (key ++ (ws ++ ':' :: (ws' ++ (cs ++ rest)))))

/-! ## Reading blanks and separators -/

theorem blank_nil : Blank [] := fun _ h ↦ absurd h List.not_mem_nil

theorem blank_space : Blank [' '] := fun _ h ↦ .inl (List.mem_singleton.mp h)

section Blanks

variable {ws cs sep : List Char} {first : Bool} {rest input : List Symbol}

theorem isBlank_of_blank (h : Blank ws) : ∀ s ∈ ws.map some, isBlank s = true := by
  intro s hs
  obtain ⟨c, hc, rfl⟩ := List.mem_map.mp hs
  rcases h c hc with rfl | rfl | rfl | rfl <;> rfl

theorem blanks_append (h : Blank ws) (input : List Symbol) :
    blanks (ws.map some ++ input) = blanks input :=
  List.dropWhile_append_of_pos (isBlank_of_blank h)

theorem blanks_cons {s : Symbol} (h : isBlank s = false) (input : List Symbol) :
    blanks (s :: input) = s :: input :=
  List.dropWhile_cons_of_neg (by rw [h]; exact Bool.false_ne_true)

/-- What a value begins with: neither a blank nor one of the symbols that stand behind values. -/
inductive Opens : List Char → Prop
  | cons {c : Char} {cs : List Char} : isBlank (some c) = false → c ∉ [',', ':', ']', '\x7d'] →
    Opens (c :: cs)

theorem blanks_opens (hws : Blank ws) (hcs : Opens cs) (rest : List Symbol) :
    blanks (ws.map some ++ (cs.map some ++ rest)) = cs.map some ++ rest := by
  obtain ⟨hblank, -⟩ := hcs
  rw [blanks_append hws, List.map_cons, List.cons_append, blanks_cons hblank]

theorem Opens.length_pos (h : Opens cs) : 0 < cs.length := by
  obtain ⟨-, -⟩ := h
  exact Nat.succ_pos _

theorem nextElement_opens (hsep : Separates first sep) (hcs : Opens cs) (rest : List Symbol) :
    Reader.nextElement first (sep.map some ++ (cs.map some ++ rest))
      = .ok (some (cs.map some ++ rest)) := by
  have hcs' := hcs
  obtain @⟨c, cs, hblank, hmember⟩ := hcs
  simp only [List.mem_cons, List.not_mem_nil, or_false, not_or] at hmember
  obtain ⟨hcomma, -, hbracket, -⟩ := hmember
  cases hsep with
  | first hws =>
    rw [Reader.nextElement.eq_def, blanks_opens hws hcs', List.map_cons, List.cons_append]
    split <;> simp_all
  | @next ws ws' hws hws' =>
    have hseparator : isBlank (some ',') = false := rfl
    have hstart : blanks (ws'.map some ++ some c :: (cs.map some ++ rest))
        = some c :: (cs.map some ++ rest) := blanks_opens hws' hcs' rest
    rw [Reader.nextElement.eq_def, List.map_append, List.append_assoc, blanks_append hws,
      List.map_cons, List.cons_append, blanks_cons hseparator, List.map_cons, List.cons_append]
    simp only [hstart]
    split <;> simp_all

theorem nextElement_close (hws : Blank ws) (rest : List Symbol) :
    Reader.nextElement first (ws.map some ++ some ']' :: rest) = .ok none := by
  have hbracket : isBlank (some ']') = false := rfl
  rw [Reader.nextElement.eq_def, blanks_append hws, blanks_cons hbracket]
  cases first <;> rfl

theorem nextMember_quote (hsep : Separates first sep) (rest : List Symbol) :
    Reader.nextMember first (sep.map some ++ some '"' :: rest) = .ok (some rest) := by
  have hquote : isBlank (some '"') = false := rfl
  cases hsep with
  | first hws =>
    rw [Reader.nextMember.eq_def, blanks_append hws, blanks_cons hquote]
    rfl
  | @next ws ws' hws hws' =>
    have hcomma : isBlank (some ',') = false := rfl
    rw [Reader.nextMember.eq_def, List.map_append, List.append_assoc, blanks_append hws,
      List.map_cons, List.cons_append, blanks_cons hcomma]
    simp only [blanks_append hws', blanks_cons hquote]

theorem nextMember_close (hws : Blank ws) (rest : List Symbol) :
    Reader.nextMember first (ws.map some ++ some '\x7d' :: rest) = .ok none := by
  have hbrace : isBlank (some '\x7d') = false := rfl
  rw [Reader.nextMember.eq_def, blanks_append hws, blanks_cons hbrace]
  cases first <;> rfl

theorem close_bracket (hws : Blank ws) (rest : List Symbol) :
    Reader.close ']' (ws.map some ++ some ']' :: rest) = .ok rest := by
  have hbracket : isBlank (some ']') = false := rfl
  rw [Reader.close.eq_def, blanks_append hws, blanks_cons hbracket]
  exact if_pos rfl

theorem close_brace (hws : Blank ws) (rest : List Symbol) :
    Reader.close '\x7d' (ws.map some ++ some '\x7d' :: rest) = .ok rest := by
  have hbrace : isBlank (some '\x7d') = false := rfl
  rw [Reader.close.eq_def, blanks_append hws, blanks_cons hbrace]
  exact if_pos rfl

theorem colon_eq (hws : Blank ws) (rest : List Symbol) :
    Reader.colon (ws.map some ++ some ':' :: rest) = .ok rest := by
  have hcolon : isBlank (some ':') = false := rfl
  rw [Reader.colon.eq_def, blanks_append hws, blanks_cons hcolon]
  rfl

end Blanks

/-! ## Reading texts -/

section Texts

variable {c : Char} {cs text chars : List Char} {n : Nat} {rest : List Symbol}

theorem hexValue?_of_hexDigit (h : HexDigit c n) : hexValue? (some c) = some n := by
  have hall : ∀ n : Fin 16, hexValue? (some (Nat.digitChar n)) = some n.val ∧
      hexValue? (some (Nat.digitChar n).toUpper) = some n.val := by decide
  obtain ⟨hlt, rfl | rfl⟩ := h
  · exact (hall ⟨n, hlt⟩).1
  · exact (hall ⟨n, hlt⟩).2

theorem hexUnit_eq (h : HexUnit cs n) (rest : List Symbol) :
    hexUnit (cs.map some ++ rest) = .ok (n, rest) := by
  obtain ⟨ha, hb, hc, hd⟩ := h
  simp only [List.map_cons, List.map_nil, List.cons_append, List.nil_append, hexUnit,
    hexValue?_of_hexDigit ha, hexValue?_of_hexDigit hb, hexValue?_of_hexDigit hc,
    hexValue?_of_hexDigit hd]

theorem escape_letter {l : Char} (h : (l, c) ∈ letters) (rest : List Symbol) :
    escape (some l :: rest) = .ok (some c, rest) ∧
      skipEscape (some l :: rest) = .ok (some c, rest) := by
  simp only [letters, List.mem_cons, Prod.mk.injEq, List.not_mem_nil, or_false] at h
  rcases h with ⟨rfl, rfl⟩ | ⟨rfl, rfl⟩ | ⟨rfl, rfl⟩ | ⟨rfl, rfl⟩ | ⟨rfl, rfl⟩ | ⟨rfl, rfl⟩ |
    ⟨rfl, rfl⟩ | ⟨rfl, rfl⟩ <;> exact ⟨rfl, rfl⟩

theorem symbols_plain {unescape : List Symbol → Attempt (Parsed Symbol)} (hc : IsPlain c)
    {input : List Symbol} {read : List Symbol}
    (h : symbols unescape n input = .ok (read, rest)) :
    symbols unescape (n + 1) (some c :: input) = .ok (some c :: read, rest) := by
  obtain ⟨hlow, hquote, hbackslash⟩ := hc
  have hcontrol : isControl (some c) = false := by
    rw [isControl, Option.any_some, decide_eq_false_iff_not]
    exact Nat.not_lt.mpr hlow
  rw [symbols]
  · rw [hcontrol, h]
    rfl
  · simpa using hquote
  · simpa using hbackslash

theorem symbols_escape {unescape : List Symbol → Attempt (Parsed Symbol)} {s : Symbol}
    {input more read : List Symbol} (hs : unescape input = .ok (s, more))
    (h : symbols unescape n more = .ok (read, rest)) :
    symbols unescape (n + 1) (some '\\' :: input) = .ok (s :: read, rest) := by
  rw [symbols, hs]
  change (symbols unescape n more >>= _) = _
  rw [h]
  rfl

theorem numericEscape_unit (h : HexUnit cs c.toNat) (rest : List Symbol) :
    numericEscape (cs.map some ++ rest) = .ok (c, rest) := by
  have hvalid : c.toNat.isValidChar := c.valid
  rw [Nat.isValidChar] at hvalid
  have hlow : isLowSurrogate c.toNat = false := by
    rw [isLowSurrogate, Bool.and_eq_false_iff, decide_eq_false_iff_not, decide_eq_false_iff_not]
    omega
  have hhigh : isHighSurrogate c.toNat = false := by
    rw [isHighSurrogate, Bool.and_eq_false_iff, decide_eq_false_iff_not, decide_eq_false_iff_not]
    omega
  rw [numericEscape, hexUnit_eq h]
  change (if isLowSurrogate c.toNat = true then _ else _) = _
  rw [hlow, if_neg Bool.false_ne_true, hhigh, if_neg Bool.false_ne_true, Char.ofNat_toNat]
  rfl

theorem numericEscape_pair {high low : Nat} {cs' : List Char} (hhigh : HexUnit cs high)
    (hlow : HexUnit cs' low) (hhigh' : 0xD800 ≤ high) (hhigh'' : high < 0xDC00)
    (hlow' : 0xDC00 ≤ low) (hlow'' : low < 0xE000)
    (hc : c.toNat = 0x10000 + (high - 0xD800) * 0x400 + (low - 0xDC00)) (rest : List Symbol) :
    numericEscape (cs.map some ++ some '\\' :: some 'u' :: (cs'.map some ++ rest))
      = .ok (c, rest) := by
  have hfirst : isLowSurrogate high = false := by
    rw [isLowSurrogate, Bool.and_eq_false_iff, decide_eq_false_iff_not, decide_eq_false_iff_not]
    omega
  have hfirst' : isHighSurrogate high = true := by
    rw [isHighSurrogate, Bool.and_eq_true, decide_eq_true_eq, decide_eq_true_eq]
    exact ⟨hhigh', hhigh''⟩
  have hsecond : isLowSurrogate low = true := by
    rw [isLowSurrogate, Bool.and_eq_true, decide_eq_true_eq, decide_eq_true_eq]
    exact ⟨hlow', hlow''⟩
  have hread : lowSurrogate (some '\\' :: some 'u' :: (cs'.map some ++ rest))
      = .ok (low, rest) := by
    rw [lowSurrogate, hexUnit_eq hlow]
    change (if isLowSurrogate low = true then _ else _) = _
    rw [if_pos hsecond]
    rfl
  rw [numericEscape, hexUnit_eq hhigh]
  change (if isLowSurrogate high = true then _ else if isHighSurrogate high = true then
    lowSurrogate _ >>= _ else _) = _
  rw [hfirst, if_neg Bool.false_ne_true, if_pos hfirst', hread]
  change Except.ok (Char.ofNat _, rest) = _
  rw [← hc, Char.ofNat_toNat]

/-- A character is read back from each way to write it. -/
theorem symbols_writesChar {n : Nat} (h : WritesChar c cs) {input read : List Symbol}
    (hinput : symbols escape n input = .ok (read, rest)) :
    symbols escape (n + 1) (cs.map some ++ input) = .ok (some c :: read, rest) := by
  cases h with
  | plain hc => exact symbols_plain hc hinput
  | letter hl => exact symbols_escape (escape_letter hl input).1 hinput
  | @unit _ cs hunit =>
    have hescape : escape (some 'u' :: (cs.map some ++ input)) = .ok (some c, input) := by
      rw [escape, numericEscape_unit hunit]
      rfl
    exact symbols_escape hescape hinput
  | @pair _ high low first second hhigh hlow hhigh' hhigh'' hlow' hlow'' hc =>
    have hescape : escape (some 'u' :: (first.map some
        ++ some '\\' :: some 'u' :: (second.map some ++ input))) = .ok (some c, input) := by
      rw [escape, numericEscape_pair hhigh hlow hhigh' hhigh'' hlow' hlow'' hc]
      rfl
    rw [List.map_append, List.append_assoc]
    exact symbols_escape hescape hinput

theorem symbols_writesChars (h : WritesChars chars text) {bound : Nat}
    (hbound : text.length ≤ bound) (rest : List Symbol) :
    symbols escape bound (text.map some ++ rest) = .ok (chars.map some, rest) := by
  induction h generalizing bound with
  | close =>
    obtain ⟨bound, rfl⟩ := Nat.exists_eq_add_of_le' hbound
    rfl
  | @cons c more cs text hc _ ih =>
    have hpos : 0 < cs.length := by cases hc <;> exact Nat.succ_pos _
    rw [List.length_append] at hbound
    obtain ⟨bound, rfl⟩ : ∃ n, bound = n + 1 := ⟨bound - 1, by omega⟩
    rw [List.map_append, List.append_assoc]
    exact symbols_writesChar hc (ih (by omega))

theorem text_eq {s : String} {text : List Char} (h : WritesChars s.toList text) {bound : Nat}
    (hbound : text.length ≤ bound) (rest : List Symbol) :
    Scan.text bound (text.map some ++ rest) = .ok (s, rest) := by
  have hread : ∀ chars : List Char, (chars.map some).mapM (fun s : Symbol ↦ s) = some chars := by
    intro chars
    induction chars with
    | nil => rfl
    | cons c chars ih => rw [List.map_cons, List.mapM_cons, ih]; rfl
  rw [Scan.text, symbols_writesChars h hbound]
  simp only [bind, Except.bind, hread, String.ofList_toList]
  rfl

theorem symbols_charForm {n : Nat} (h : CharForm cs) {input read : List Symbol}
    (hinput : symbols skipEscape n input = .ok (read, rest)) :
    ∃ read, symbols skipEscape (n + 1) (cs.map some ++ input) = .ok (read, rest) := by
  cases h with
  | plain hc => exact ⟨_, symbols_plain hc hinput⟩
  | letter hl => exact ⟨_, symbols_escape (escape_letter hl input).2 hinput⟩
  | @unit cs code hunit =>
    have hescape : skipEscape (some 'u' :: (cs.map some ++ input)) = .ok (none, input) := by
      rw [skipEscape, hexUnit_eq hunit]
      rfl
    exact ⟨_, symbols_escape hescape hinput⟩

theorem symbols_textForm (h : TextForm text) {bound : Nat} (hbound : text.length ≤ bound)
    (rest : List Symbol) :
    ∃ read, symbols skipEscape bound (text.map some ++ rest) = .ok (read, rest) := by
  induction h generalizing bound with
  | close =>
    obtain ⟨bound, rfl⟩ := Nat.exists_eq_add_of_le' hbound
    exact ⟨[], rfl⟩
  | @cons cs text hc _ ih =>
    have hpos : 0 < cs.length := by cases hc <;> exact Nat.succ_pos _
    rw [List.length_append] at hbound
    obtain ⟨bound, rfl⟩ : ∃ n, bound = n + 1 := ⟨bound - 1, by omega⟩
    have hlength : text.length ≤ bound := by omega
    obtain ⟨read, hread⟩ := ih hlength
    rw [List.map_append, List.append_assoc]
    exact symbols_charForm hc hread

/-- A text is skipped as far as it reaches, if only it is well-formed. -/
theorem skipText_eq (h : TextForm text) {bound : Nat} (hbound : text.length ≤ bound)
    (rest : List Symbol) : skipText bound (text.map some ++ rest) = .ok rest := by
  obtain ⟨read, hread⟩ := symbols_textForm h hbound rest
  rw [skipText, hread]
  rfl

end Texts

/-! ## Reading numbers -/

section Numbers

variable {cs : List Char} {rest : List Symbol}

/-- Symbols at which a number ends. -/
def Stops (rest : List Symbol) : Prop :=
  ∀ c, rest.head? = some (some c) → c.isDigit = false ∧ c ≠ '.' ∧ c ≠ 'e' ∧ c ≠ 'E'

theorem stops_nil : Stops [] := by
  intro c h
  rw [List.head?_nil] at h
  cases h

theorem isDigit_some (c : Char) : Scan.isDigit (some c) = c.isDigit := by
  rw [Scan.isDigit, digitValue?, Option.bind_some]
  cases c.isDigit <;> rfl

theorem Stops.not_digit (h : Stops rest) : rest.head?.any Scan.isDigit = false := by
  rcases rest with - | ⟨- | c, rest⟩
  · rfl
  · rfl
  · rw [List.head?_cons, Option.any_some, isDigit_some, (h c rfl).1]

theorem digits_eq (h : Digits cs) (hrest : rest.head?.any Scan.isDigit = false) :
    digits (cs.map some ++ rest) = (cs.map fun c ↦ c.toNat - '0'.toNat, rest) := by
  have hall : ∀ s ∈ cs.map some, Scan.isDigit s = true := by
    intro s hs
    obtain ⟨c, hc, rfl⟩ := List.mem_map.mp hs
    rw [isDigit_some, h.2 c hc]
  have hnone : rest.takeWhile Scan.isDigit = [] ∧ rest.dropWhile Scan.isDigit = rest := by
    rcases rest with - | ⟨s, rest⟩
    · exact ⟨rfl, rfl⟩
    · have hs : ¬Scan.isDigit s = true := by
        rw [List.head?_cons, Option.any_some] at hrest
        exact Bool.eq_false_iff.mp hrest
      exact ⟨List.takeWhile_cons_of_neg hs, List.dropWhile_cons_of_neg hs⟩
  have hvalues : (cs.map some).filterMap digitValue? = cs.map fun c ↦ c.toNat - '0'.toNat := by
    obtain ⟨-, hdigits⟩ := h
    clear hall
    induction cs with
    | nil => rfl
    | cons c cs ih =>
      have hc : digitValue? (some c) = some (c.toNat - '0'.toNat) :=
        if_pos (hdigits c List.mem_cons_self)
      rw [List.map_cons, List.filterMap_cons_some hc,
        ih fun d hd ↦ hdigits d (List.mem_cons_of_mem c hd), List.map_cons]
  rw [digits, List.takeWhile_append_of_pos hall, List.dropWhile_append_of_pos hall, hnone.1,
    hnone.2, List.append_nil, hvalues]

theorem wholePart_eq (h : WholeForm cs) (hrest : rest.head?.any Scan.isDigit = false)
    (atEnd : DocumentFault) :
    wholePart (cs.map some ++ rest) atEnd = .ok (cs.map fun c ↦ c.toNat - '0'.toNat, rest) := by
  cases h with
  | zero => exact if_neg fun h ↦ Bool.false_ne_true (hrest.symm.trans h)
  | digits hdigits hzero =>
    obtain ⟨c, cs, rfl⟩ := List.exists_cons_of_ne_nil hdigits.1
    have hc : Scan.isDigit (some c) = true :=
      (isDigit_some c).trans (hdigits.2 c List.mem_cons_self)
    have hne : c ≠ '0' := fun heq ↦ hzero (by rw [heq, List.head?_cons])
    rw [← digits_eq hdigits hrest, List.map_cons, List.cons_append, wholePart]
    · exact if_pos hc
    · simpa using hne

/-- What stands behind the digits of a number cannot be read as another digit or as a point. -/
theorem exponent_head {exponent : List Char} (h : ExponentForm exponent) (hrest : Stops rest) :
    (exponent.map some ++ rest).head?.any Scan.isDigit = false ∧
      ∀ more, exponent.map some ++ rest ≠ some '.' :: more := by
  cases h with
  | none =>
    refine ⟨hrest.not_digit, fun more heq ↦ ?_⟩
    rw [List.map_nil, List.nil_append] at heq
    exact (hrest '.' (by rw [heq, List.head?_cons])).2.1 rfl
  | digits he hsign hdigits =>
    rcases he with rfl | rfl <;> exact ⟨rfl, by rintro more ⟨⟩⟩

theorem fractionPart_none (hpoint : ∀ more, rest ≠ some '.' :: more) (atEnd : DocumentFault) :
    fractionPart rest atEnd = .ok (none, rest) := by
  rw [fractionPart]
  exact hpoint

theorem fractionPart_eq {fraction : List Char} (h : FractionForm fraction)
    (hrest : rest.head?.any Scan.isDigit = false) (hpoint : ∀ more, rest ≠ some '.' :: more)
    (atEnd : DocumentFault) :
    ∃ read, fractionPart (fraction.map some ++ rest) atEnd = .ok (read, rest) := by
  cases h with
  | none =>
    exact ⟨none, fractionPart_none hpoint atEnd⟩
  | @digits cs hdigits =>
    obtain ⟨d, ds, hvalues⟩ : ∃ d ds, (cs.map fun c ↦ c.toNat - '0'.toNat) = d :: ds :=
      List.exists_cons_of_ne_nil fun heq ↦ hdigits.1 (List.map_eq_nil_iff.mp heq)
    refine ⟨some (d :: ds), ?_⟩
    rw [List.map_cons, List.cons_append, fractionPart, digits_eq hdigits hrest, hvalues]

theorem exponentPart_none (hrest : Stops rest) (atEnd : DocumentFault) :
    exponentPart rest atEnd = .ok (none, rest) := by
  rw [exponentPart.eq_def]
  split
  · exact absurd rfl (hrest 'e' (by rw [List.head?_cons])).2.2.1
  · exact absurd rfl (hrest 'E' (by rw [List.head?_cons])).2.2.2
  · rfl

theorem exponentSign_eq {sign : List Char} (hsign : sign = [] ∨ sign = ['+'] ∨ sign = ['-'])
    (hdigits : Digits cs) (rest : List Symbol) : ∃ negative,
      exponentSign ((sign ++ cs).map some ++ rest) = (negative, cs.map some ++ rest) := by
  rcases hsign with rfl | rfl | rfl
  · obtain ⟨c, cs, rfl⟩ := List.exists_cons_of_ne_nil hdigits.1
    have hc := hdigits.2 c List.mem_cons_self
    refine ⟨false, ?_⟩
    rw [List.nil_append, List.map_cons, List.cons_append, exponentSign.eq_def]
    -- a digit is no sign
    split
    · cases ‹_›
      exact absurd hc (by decide)
    · cases ‹_›
      exact absurd hc (by decide)
    · rfl
  · exact ⟨false, rfl⟩
  · exact ⟨true, rfl⟩

theorem exponentPart_eq {exponent : List Char} (h : ExponentForm exponent) (hrest : Stops rest)
    (atEnd : DocumentFault) :
    ∃ read, exponentPart (exponent.map some ++ rest) atEnd = .ok (read, rest) := by
  cases h with
  | none => exact ⟨none, exponentPart_none hrest atEnd⟩
  | @digits e sign cs he hsign hdigits =>
    obtain ⟨negative, hread⟩ := exponentSign_eq hsign hdigits rest
    obtain ⟨d, ds, hvalues⟩ : ∃ d ds, (cs.map fun c ↦ c.toNat - '0'.toNat) = d :: ds :=
      List.exists_cons_of_ne_nil fun heq ↦ hdigits.1 (List.map_eq_nil_iff.mp heq)
    have hvalue := digits_eq hdigits hrest.not_digit
    rw [hvalues] at hvalue
    rcases he with rfl | rfl
    all_goals
      rw [List.cons_append, List.map_cons, List.cons_append, exponentPart]
      simp only [hread, hvalue]
      exact ⟨_, rfl⟩

theorem numeral_eq (h : NumeralForm cs) (hrest : Stops rest) (atEnd : DocumentFault) :
    ∃ n, numeral (cs.map some ++ rest) atEnd = .ok (n, rest) := by
  obtain @⟨whole, fraction, exponent, hwhole, hfraction, hexponent⟩ := h
  obtain ⟨hdigit, hpoint⟩ := exponent_head hexponent hrest
  obtain ⟨read, hread⟩ := fractionPart_eq hfraction hdigit hpoint atEnd
  obtain ⟨read', hread'⟩ := exponentPart_eq hexponent hrest atEnd
  have hhead : (fraction.map some ++ (exponent.map some ++ rest)).head?.any Scan.isDigit
      = false := by
    cases hfraction with
    | none => exact hdigit
    | digits _ => rfl
  refine ⟨⟨whole.map fun c ↦ c.toNat - '0'.toNat, read, read'⟩, ?_⟩
  rw [List.map_append, List.map_append, List.append_assoc, List.append_assoc, numeral,
    wholePart_eq hwhole hhead]
  change (fractionPart _ atEnd >>= _) = _
  rw [hread]
  change (exponentPart _ atEnd >>= _) = _
  rw [hread']
  rfl

theorem numeral_whole (h : WholeForm cs) (hrest : Stops rest) (atEnd : DocumentFault) :
    numeral (cs.map some ++ rest) atEnd
      = .ok (⟨cs.map fun c ↦ c.toNat - '0'.toNat, none, none⟩, rest) := by
  have hpoint : ∀ more, rest ≠ some '.' :: more := (exponent_head .none hrest).2
  rw [numeral, wholePart_eq h hrest.not_digit]
  change (fractionPart rest atEnd >>= _) = _
  rw [fractionPart_none hpoint]
  change (exponentPart rest atEnd >>= _) = _
  rw [exponentPart_none hrest]
  rfl

end Numbers

/-! ## Skipping values -/

section Skipping

variable {cs : List Char} {rest : List Symbol}

theorem NumeralForm.head_isDigit (h : NumeralForm cs) :
    ∃ c more, cs = c :: more ∧ c.isDigit = true := by
  obtain ⟨hwhole, -, -⟩ := h
  cases hwhole with
  | zero => exact ⟨'0', _, rfl, rfl⟩
  | digits hdigits _ =>
    obtain ⟨c, more, rfl⟩ := List.exists_cons_of_ne_nil hdigits.1
    exact ⟨c, _, rfl, hdigits.2 c List.mem_cons_self⟩

theorem opens_of_isDigit {c : Char} (h : c.isDigit = true) : Opens (c :: cs) := by
  have hother : ∀ d : Char, d.isDigit = false → c ≠ d := fun d hd heq ↦
    Bool.false_ne_true (hd.symm.trans (heq ▸ h))
  refine .cons ?_ ?_
  · simp [isBlank, hother ' ' rfl, hother '\n' rfl, hother '\t' rfl, hother '\r' rfl]
  · simp [hother ',' rfl, hother ':' rfl, hother ']' rfl, hother '\x7d' rfl]

theorem Form.opens (h : Form .value cs) : Opens cs := by
  cases h with
  | null | yes | no => exact .cons rfl (by decide)
  | positive hnumeral =>
    obtain ⟨c, more, rfl, hc⟩ := hnumeral.head_isDigit
    exact opens_of_isDigit hc
  | negative _ | text _ | array _ | object _ => exact .cons rfl (by decide)

theorem stops_cons {c : Char} (h : c.isDigit = false ∧ c ≠ '.' ∧ c ≠ 'e' ∧ c ≠ 'E')
    (rest : List Symbol) : Stops (some c :: rest) := by
  intro d hd
  rw [List.head?_cons, Option.some.injEq, Option.some.injEq] at hd
  exact hd ▸ h

theorem stops_blank {ws : List Char} (hws : Blank ws) (h : Stops rest) :
    Stops (ws.map some ++ rest) := by
  cases ws with
  | nil => exact h
  | cons c ws =>
    rcases hws c List.mem_cons_self with rfl | rfl | rfl | rfl <;>
      exact stops_cons (by decide) _

theorem Separates.stops {sep : List Char} (h : Separates false sep) (rest : List Symbol) :
    Stops (sep.map some ++ rest) := by
  cases h with
  | next hws _ =>
    rw [List.map_append, List.append_assoc]
    exact stops_blank hws (stops_cons (by decide) _)

theorem Form.length_pos {part : Part} (h : Form part cs) : 0 < cs.length := by
  cases h with
  | positive hnumeral => exact (Form.positive hnumeral).opens.length_pos
  | element _ hcs _ =>
    have := hcs.opens.length_pos
    rw [List.length_append, List.length_append]
    omega
  | lastElement _ | lastMember _ | member _ _ _ _ _ _ =>
    rw [List.length_append, List.length_cons]
    omega
  | null | yes | no | negative _ | text _ | array _ | object _ => exact Nat.succ_pos _

theorem Form.stops_elements (h : Form (.elements false) cs) (rest : List Symbol) :
    Stops (cs.map some ++ rest) := by
  cases h with
  | lastElement hws =>
    rw [List.map_append, List.append_assoc]
    exact stops_blank hws (stops_cons (by decide) _)
  | element hsep _ _ =>
    rw [List.map_append, List.append_assoc]
    exact hsep.stops _

theorem Form.stops_members (h : Form (.members false) cs) (rest : List Symbol) :
    Stops (cs.map some ++ rest) := by
  cases h with
  | lastMember hws =>
    rw [List.map_append, List.append_assoc]
    exact stops_blank hws (stops_cons (by decide) _)
  | member hsep _ _ _ _ _ =>
    rw [List.map_append, List.append_assoc]
    exact hsep.stops _

/-- A part of a text is skipped as far as it reaches. -/
def Part.Skips (cs : List Char) : Part → Prop
  | .value => ∀ ws bound rest, Blank ws → cs.length ≤ bound → Stops rest →
    Reader.skip bound (ws.map some ++ (cs.map some ++ rest)) = .ok rest
  | .elements first => ∀ bound rest, cs.length ≤ bound →
    Reader.skipElements bound first (cs.map some ++ rest) = .ok rest
  | .members first => ∀ bound rest, cs.length ≤ bound →
    Reader.skipMembers bound first (cs.map some ++ rest) = .ok rest

theorem skips_numeral (h : NumeralForm cs) (hrest : Stops rest) :
    skipNumber (cs.map some ++ rest) = .ok rest := by
  obtain ⟨n, hn⟩ := numeral_eq h hrest .syntactic
  rw [skipNumber, hn]
  rfl

section Steps

variable {ws ws' sep key : List Char} {first : Bool} {bound : Nat} {input : List Symbol}

/-- What begins with a digit is skipped as a number. -/
theorem skip_isDigit {c : Char} (hc : c.isDigit = true) (hws : Blank ws) (bound : Nat)
    (input : List Symbol) :
    Reader.skip (bound + 1) (ws.map some ++ some c :: input) = skipNumber (some c :: input) := by
  have hopens : Opens [c] := opens_of_isDigit hc
  have hblanks : blanks (ws.map some ++ some c :: input) = some c :: input :=
    blanks_opens hws hopens input
  have hdigit : Scan.isDigit (some c) = true := (isDigit_some c).trans hc
  rw [Reader.skip, hblanks]
  -- the other ways to begin a value are no digits
  split <;> simp_all

theorem skipElements_close (hws : Blank ws) (bound : Nat) (rest : List Symbol) :
    Reader.skipElements (bound + 1) first (ws.map some ++ some ']' :: rest) = .ok rest := by
  rw [Reader.skipElements, nextElement_close hws]
  exact close_bracket hws rest

theorem skipElements_element (hsep : Separates first sep) (hcs : Opens cs)
    (hskip : Reader.skip bound (cs.map some ++ input) = .ok input) :
    Reader.skipElements (bound + 1) first (sep.map some ++ (cs.map some ++ input))
      = Reader.skipElements bound false input := by
  rw [Reader.skipElements, nextElement_opens hsep hcs]
  change (Reader.skip bound _ >>= _) = _
  rw [hskip]
  rfl

theorem skipMembers_close (hws : Blank ws) (bound : Nat) (rest : List Symbol) :
    Reader.skipMembers (bound + 1) first (ws.map some ++ some '\x7d' :: rest) = .ok rest := by
  rw [Reader.skipMembers, nextMember_close hws]
  exact close_brace hws rest

theorem skipMembers_member (hsep : Separates first sep) (hkey : TextForm key)
    (hbound : key.length ≤ bound) (hws : Blank ws)
    (hskip : Reader.skip bound (ws'.map some ++ (cs.map some ++ input)) = .ok input) :
    Reader.skipMembers (bound + 1) first (sep.map some ++ some '"' :: (key.map some
        ++ (ws.map some ++ some ':' :: (ws'.map some ++ (cs.map some ++ input)))))
      = Reader.skipMembers bound false input := by
  rw [Reader.skipMembers, nextMember_quote hsep]
  change (skipText bound _ >>= _) = _
  rw [skipText_eq hkey hbound]
  change (Reader.colon _ >>= _) = _
  rw [colon_eq hws]
  change (Reader.skip bound _ >>= _) = _
  rw [hskip]
  rfl

end Steps

/-- **Skipping.** What is skipped ends exactly where it ends as a well-formed text. -/
theorem Form.skips {part : Part} (h : Form part cs) : part.Skips cs := by
  induction h with
  | null | yes | no =>
    intro ws bound rest hws hbound _
    obtain ⟨bound, rfl⟩ := Nat.exists_eq_add_of_le' (Nat.lt_of_lt_of_le (Nat.succ_pos _) hbound)
    rw [Reader.skip, blanks_opens hws (.cons rfl (by decide))]
    rfl
  | positive hnumeral =>
    intro ws bound rest hws hbound hrest
    obtain ⟨c, cs, rfl, hc⟩ := hnumeral.head_isDigit
    obtain ⟨bound, rfl⟩ := Nat.exists_eq_add_of_le' (Nat.lt_of_lt_of_le (Nat.succ_pos _) hbound)
    rw [List.map_cons, List.cons_append, skip_isDigit hc hws]
    exact skips_numeral hnumeral hrest
  | negative hnumeral =>
    intro ws bound rest hws hbound hrest
    obtain ⟨bound, rfl⟩ := Nat.exists_eq_add_of_le' (Nat.lt_of_lt_of_le (Nat.succ_pos _) hbound)
    rw [Reader.skip, blanks_opens hws (.cons rfl (by decide))]
    exact skips_numeral hnumeral hrest
  | text htext =>
    intro ws bound rest hws hbound _
    obtain ⟨bound, rfl⟩ := Nat.exists_eq_add_of_le' (Nat.lt_of_lt_of_le (Nat.succ_pos _) hbound)
    rw [Reader.skip, blanks_opens hws (.cons rfl (by decide))]
    exact skipText_eq htext (Nat.le_of_succ_le_succ hbound) rest
  | array _ ih | object _ ih =>
    intro ws bound rest hws hbound _
    obtain ⟨bound, rfl⟩ := Nat.exists_eq_add_of_le' (Nat.lt_of_lt_of_le (Nat.succ_pos _) hbound)
    rw [Reader.skip, blanks_opens hws (.cons rfl (by decide))]
    exact ih bound rest (Nat.le_of_succ_le_succ hbound)
  | lastElement hws =>
    intro bound rest hbound
    rw [List.length_append] at hbound
    obtain ⟨bound, rfl⟩ := Nat.exists_eq_add_of_le' (Nat.le_trans (Nat.le_add_left 1 _) hbound)
    rw [List.map_append, List.append_assoc]
    exact skipElements_close hws bound rest
  | element hsep hcs hmore ihcs ihmore =>
    intro bound rest hbound
    -- neither the value nor what follows it is empty, so both are shorter than the bound
    have hpos := hcs.length_pos
    have hpos' := hmore.length_pos
    rw [List.length_append, List.length_append] at hbound
    obtain ⟨bound, rfl⟩ : ∃ n, bound = n + 1 := Nat.exists_eq_add_of_le' (by omega)
    have hskip := ihcs [] bound _ blank_nil (by omega) (hmore.stops_elements rest)
    rw [List.map_append, List.map_append, List.append_assoc, List.append_assoc,
      skipElements_element hsep hcs.opens hskip]
    exact ihmore bound rest (by omega)
  | lastMember hws =>
    intro bound rest hbound
    rw [List.length_append] at hbound
    obtain ⟨bound, rfl⟩ := Nat.exists_eq_add_of_le' (Nat.le_trans (Nat.le_add_left 1 _) hbound)
    rw [List.map_append, List.append_assoc]
    exact skipMembers_close hws bound rest
  | member hsep hkey hws hws' hcs hmore ihcs ihmore =>
    intro bound rest hbound
    simp only [List.length_append, List.length_cons] at hbound
    obtain ⟨bound, rfl⟩ : ∃ n, bound = n + 1 := Nat.exists_eq_add_of_le' (by omega)
    have hskip := ihcs _ bound _ hws' (by omega) (hmore.stops_members rest)
    simp only [List.map_append, List.map_cons, List.append_assoc, List.cons_append]
    rw [skipMembers_member hsep hkey (by omega) hws hskip]
    exact ihmore bound rest (by omega)

end Skipping

end BookmarkGraph.Json
