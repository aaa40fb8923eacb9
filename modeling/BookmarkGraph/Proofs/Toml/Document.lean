import BookmarkGraph.Proofs.Outcome
import BookmarkGraph.Proofs.Text.Numeral
import BookmarkGraph.Proofs.Toml.Text
import BookmarkGraph.Toml.Document

/-!
# Documents of plain lines are read back

A plain line has a bare key, an equals sign and a value: a text, a whole number, a truth value or an
array of texts. What the value is written as *denotes* what it means if reading it at the end of a
line gives a value of that meaning, whatever stands on the lines below (`Denotes`).

Values are tried as moments and floats before they are read as whole numbers, so a number needs to
be refused by the readers in front: digits up to the end of a line (`Row`) are neither a moment nor
a float.

A document of plain lines with different keys has one entry for each of them, in the order of the
lines and with the meaning of the line: `extend_lines`.
-/

namespace BookmarkGraph.Toml.Scan

/-! ## Misses -/

section Misses

variable {α β : Type}

/-- What is looked for is not found, and something else may be tried. -/
def Misses (read : Except Stop α) : Prop := ∃ place, read = miss place

theorem Misses.bind {read : Except Stop α} (h : Misses read) (f : α → Except Stop β) :
    Misses (read >>= f) := by
  obtain ⟨place, rfl⟩ := h
  exact ⟨place, rfl⟩

theorem orElse_of_misses {first : Scanner α} {input : Place} (h : Misses (first input))
    (second : Scanner α) : orElse first second input = second input := by
  obtain ⟨place, hplace⟩ := h
  rw [orElse, hplace]
  rfl

theorem optional_of_misses {scan : Scanner α} {input : Place} (h : Misses (scan input)) :
    optional scan input = .ok (none, input) := by
  obtain ⟨place, hplace⟩ := h
  rw [optional, hplace]
  rfl

theorem optional_ok {scan : Scanner α} {input rest : Place} {x : α}
    (h : scan input = .ok (x, rest)) : optional scan input = .ok (some x, rest) := by
  rw [optional, h]

theorem expect_misses {c : Char} {input : Place} (h : input.head? ≠ some c) :
    Misses (expect [c] input) := by
  refine ⟨input, if_neg ?_⟩
  cases input with
  | nil => exact Bool.false_ne_true
  | cons d rest =>
    have hne : c ≠ d := fun heq ↦ h (congrArg some heq.symm)
    simpa using hne

theorem expect_cons (c : Char) (rest : Place) : expect [c] (c :: rest) = .ok rest :=
  if_pos (by simp)

/-! ### Lists with separators -/

variable {item : Scanner α} {separator : Char} {bound : Nat} {input rest last : Place} {x : α}
  {xs : List α}

theorem someWith_end (h : item input = .ok (x, rest)) (hrest : rest.head? ≠ some separator) :
    someWith item separator (bound + 1) input = .ok ([x], rest) := by
  rw [someWith, h, ok_bind]
  dsimp only
  rw [optional_of_misses ((expect_misses hrest).bind _)]
  rfl

theorem someWith_stop (h : item input = .ok (x, separator :: rest))
    (hrest : Misses (someWith item separator bound rest)) :
    someWith item separator (bound + 1) input = .ok ([x], separator :: rest) := by
  have hnext :
      Misses (expect [separator] (separator :: rest) >>= someWith item separator bound) := by
    rwa [expect_cons, ok_bind]
  rw [someWith, h, ok_bind]
  dsimp only
  rw [optional_of_misses hnext]
  rfl

theorem someWith_more (h : item input = .ok (x, separator :: rest))
    (hrest : someWith item separator bound rest = .ok (xs, last)) :
    someWith item separator (bound + 1) input = .ok (x :: xs, last) := by
  have hnext : expect [separator] (separator :: rest) >>= someWith item separator bound
      = .ok (xs, last) := by
    rwa [expect_cons, ok_bind]
  rw [someWith, h, ok_bind]
  dsimp only
  rw [optional_ok hnext]
  rfl

theorem manyWith_of_someWith (h : someWith item separator bound input = .ok (xs, rest)) :
    manyWith item separator bound input = .ok (xs, rest) := by
  rw [manyWith, optional_ok h]
  rfl

end Misses

/-! ## Numbers -/

/-- Digits up to the end of a line. -/
inductive Row : Place → Prop
  | stop (rest : Place) : Row ('\n' :: rest)
  | digit {c : Char} {input : Place} : c.isDigit = true → Row input → Row (c :: input)

section Numbers

variable {c : Char} {input rest : Place} {ds : List Char} {n : Nat}

theorem row_append (h : ∀ c ∈ ds, c.isDigit = true) (rest : Place) : Row (ds ++ '\n' :: rest) := by
  induction ds with
  | nil => exact .stop rest
  | cons c ds ih =>
    exact .digit (h c List.mem_cons_self) (ih fun d hd ↦ h d (List.mem_cons_of_mem c hd))

theorem Row.head?_ne (h : Row input) (hc : c.isDigit = false) (hbreak : c ≠ '\n') :
    input.head? ≠ some c := by
  rintro hhead
  cases h with
  | stop rest => exact hbreak (Option.some.inj hhead).symm
  | digit hd _ =>
    rw [Option.some.inj hhead, hc] at hd
    cases hd

theorem digitValue?_isDigit (h : c.isDigit = true) :
    digitValue? 10 c = some (c.toNat - '0'.toNat) := by
  have hrange : '0' ≤ c ∧ c ≤ '9' := by simpa [Char.isDigit, Char.le_def] using h
  have hzero : '0'.toNat = 0x30 := rfl
  have hnine : '9'.toNat = 0x39 := rfl
  rw [Char.isDigit_iff_toNat] at h
  rw [digitValue?, Numeral.hexValue?, if_pos hrange]
  exact if_pos (decide_eq_true (by omega))

theorem digitValue?_break : digitValue? 10 '\n' = none := by decide

theorem Row.twoDigits (h : Row input) (least greatest : Nat) :
    Misses (twoDigits least greatest input) ∨
      ∃ n rest, Scan.twoDigits least greatest input = .ok (n, rest) ∧ Row rest := by
  rcases h with ⟨_ | ⟨b, rest⟩⟩ | ⟨ha, ⟨rest⟩ | ⟨hb, hrest⟩⟩
  · exact .inl ⟨_, rfl⟩
  · exact .inl ⟨_, by rw [Scan.twoDigits, digitValue?_break]⟩
  · exact .inl ⟨_, by rw [Scan.twoDigits, digitValue?_isDigit ha, digitValue?_break]⟩
  · rw [Scan.twoDigits, digitValue?_isDigit ha, digitValue?_isDigit hb]
    dsimp only
    split
    · exact .inr ⟨_, _, rfl, hrest⟩
    · exact .inl ⟨_, rfl⟩

theorem Row.misses_date (h : Row input) : Misses (date input) := by
  rw [date]
  rcases h.twoDigits 0 99 with hmiss | ⟨century, rest, hread, hrest⟩
  · exact hmiss.bind _
  · rw [hread]
    rcases hrest.twoDigits 0 99 with hmiss | ⟨year, rest, hread, hrest⟩
    · exact hmiss.bind _
    · rw [ok_bind]
      dsimp only
      rw [hread]
      exact (expect_misses (hrest.head?_ne rfl (by decide))).bind _

theorem Row.misses_time (h : Row input) : Misses (time input) := by
  rw [time]
  rcases h.twoDigits 0 23 with hmiss | ⟨hour, rest, hread, hrest⟩
  · exact hmiss.bind _
  · rw [hread]
    exact (expect_misses (hrest.head?_ne rfl (by decide))).bind _

theorem Row.misses_moment (h : Row input) : Misses (moment input) := by
  obtain ⟨place, hdate⟩ := h.misses_date
  rw [moment, hdate]
  exact h.misses_time

/-! ### Decimal numbers -/

theorem digitTail_eq (h : ∀ c ∈ ds, c.isDigit = true) (rest : Place) :
    digitTail (digitValue? 10) (ds ++ '\n' :: rest)
      = .ok (ds.map fun c ↦ c.toNat - '0'.toNat, '\n' :: rest) := by
  induction ds with
  | nil =>
    rw [List.nil_append, digitTail, digitValue?_break]
    · rfl
    all_goals simp
  | cons c ds ih =>
    have hc := h c List.mem_cons_self
    have hunderscore : c ≠ '_' := by rintro rfl; cases hc
    rw [List.cons_append, digitTail, digitValue?_isDigit hc]
    · dsimp only
      rw [ih fun d hd ↦ h d (List.mem_cons_of_mem c hd)]
      rfl
    all_goals simp [hunderscore]

theorem ofDigits_toDigits (n : Nat) :
    ofDigits 10 ((Nat.toDigits 10 n).map fun c ↦ c.toNat - '0'.toNat) = n := by
  rw [ofDigits, List.foldl_map]
  exact Nat.ofDigitChars_ten_toDigits

/-- What the digits of a number begin with: a zero that is the whole number, or another digit. -/
theorem toDigits_cases (n : Nat) : n = 0 ∨
    ∃ c cs, Nat.toDigits 10 n = c :: cs ∧ c.isDigit = true ∧ c ≠ '0' := by
  rcases Nat.eq_zero_or_pos n with rfl | hn
  · exact .inl rfl
  · obtain ⟨c, cs, hcs⟩ := List.exists_cons_of_ne_nil (Nat.toDigits_ne_nil (b := 10) (n := n))
    have hhead := Numeral.head?_toDigits hn
    rw [hcs] at hhead
    refine .inr ⟨c, cs, hcs, ?_, by simpa using hhead⟩
    exact (Numeral.spells_toDigits n).digits c (hcs ▸ List.mem_cons_self)

theorem decimalDigits_toDigits (n : Nat) (rest : Place) :
    decimalDigits (Nat.toDigits 10 n ++ '\n' :: rest)
      = .ok ((Nat.toDigits 10 n).map fun c ↦ c.toNat - '0'.toNat, '\n' :: rest) := by
  have hdigits := (Numeral.spells_toDigits n).digits
  rcases toDigits_cases n with rfl | ⟨c, cs, hcs, hc, hzero⟩
  · rfl
  · rw [hcs, List.cons_append, decimalDigits, digits, digitValue?_isDigit hc]
    · dsimp only
      rw [digitTail_eq fun d hd ↦ hdigits d (hcs ▸ List.mem_cons_of_mem c hd)]
      rfl
    · simp [hzero]

theorem row_toDigits (n : Nat) (rest : Place) : Row (Nat.toDigits 10 n ++ '\n' :: rest) :=
  row_append (Numeral.spells_toDigits n).digits rest

theorem Row.sign_eq (h : Row input) : sign input = (false, input) := by
  have hminus := h.head?_ne (c := '-') rfl (by decide)
  have hplus := h.head?_ne (c := '+') rfl (by decide)
  rw [sign.eq_def]
  split <;> simp_all

/-- A zero in front of a number ends the line, so it is no mark of another base. -/
theorem eq_break_of_toDigits {m : Char} {more : Place}
    (h : Nat.toDigits 10 n ++ '\n' :: rest = '0' :: m :: more) : m = '\n' := by
  rcases toDigits_cases n with rfl | ⟨c, cs, hcs, -, hzero⟩
  · cases h
    rfl
  · rw [hcs] at h
    exact absurd (List.cons.inj h).1 hzero

theorem integer_toDigits (h : n < signedLimit) (rest : Place) :
    integer (Nat.toDigits 10 n ++ '\n' :: rest) = .ok ((n : Int), '\n' :: rest) := by
  have hfits : fits n = true := by
    rw [fits, Bool.and_eq_true, decide_eq_true_eq, decide_eq_true_eq]
    omega
  rw [integer, (row_toDigits n rest).sign_eq]
  · dsimp only
    rw [decimalDigits_toDigits, ok_bind]
    dsimp only
    rw [ofDigits_toDigits]
    exact if_pos hfits
  · exact fun more heq ↦ absurd (eq_break_of_toDigits heq) (by decide)
  · exact fun more heq ↦ absurd (eq_break_of_toDigits heq) (by decide)
  · exact fun more heq ↦ absurd (eq_break_of_toDigits heq) (by decide)

theorem misses_decimalFloat (n : Nat) (rest : Place) :
    Misses (decimalFloat (Nat.toDigits 10 n ++ '\n' :: rest)) := by
  have hmiss : Misses (fractionAndExponent ('\n' :: rest)) := ⟨_, rfl⟩
  rw [decimalFloat, (row_toDigits n rest).sign_eq]
  dsimp only
  rw [decimalDigits_toDigits, ok_bind]
  exact hmiss.bind _

theorem Row.misses_namedFloat (h : Row input) : Misses (namedFloat input) := by
  have hi := h.head?_ne (c := 'i') rfl (by decide)
  have hn := h.head?_ne (c := 'n') rfl (by decide)
  rw [namedFloat, h.sign_eq]
  dsimp only
  split
  · exact absurd rfl hi
  · exact absurd rfl hn
  · exact ⟨_, rfl⟩

theorem numeric_toDigits (h : n < signedLimit) (rest : Place) :
    ∃ place, numeric (Nat.toDigits 10 n ++ '\n' :: rest)
      = .ok (.integer place n, '\n' :: rest) := by
  have hrow := row_toDigits n rest
  refine ⟨Nat.toDigits 10 n ++ '\n' :: rest, ?_⟩
  rw [numeric]
  dsimp only
  rw [orElse_of_misses (hrow.misses_moment.bind _),
    orElse_of_misses ((misses_decimalFloat n rest).bind _),
    orElse_of_misses (hrow.misses_namedFloat.bind _), integer_toDigits h]
  rfl

end Numbers

/-! ## Values -/

section Values

variable {c : Char} {rest : Place} {n : Nat} {s : String}

/-- A value at the end of a line means something, whatever stands on the lines below. -/
structure Denotes (written : List Char) (Means : Toml → Prop) : Prop where
  /-- The value does not begin with a blank. -/
  opens : ∃ c cs, written = c :: cs ∧ isBlank c = false
  /-- The value is read as what it means. -/
  reads : ∀ rest, ∃ x,
    value (depthLimit - 1) (written ++ '\n' :: rest) = .ok (x, '\n' :: rest) ∧ Means x

theorem value_quote (depth : Nat) (s : String) (hquote : rest.head? ≠ some '"')
    (hapostrophe : rest.head? ≠ some '\'') :
    value depth ((quote s).toList ++ rest) = .ok (.text ((quote s).toList ++ rest) s, rest) := by
  have hread := text_quote s hquote hapostrophe
  obtain ⟨c, more, heq, hc⟩ := quote_cons s
  rw [heq, List.cons_append] at hread ⊢
  rcases hc with rfl | rfl
  · rw [value.eq_def]
    dsimp only
    rw [hread]
    rfl
  · rw [value.eq_def]
    dsimp only
    rw [hread]
    rfl

theorem denotes_quote (s : String) :
    Denotes (quote s).toList fun x ↦ ∃ place, x = .text place s where
  opens := by
    obtain ⟨c, more, heq, hc⟩ := quote_cons s
    refine ⟨c, more, heq, ?_⟩
    rcases hc with rfl | rfl <;> rfl
  reads _ := ⟨_, value_quote _ s (by simp) (by simp), _, rfl⟩

theorem denotes_toString_bool (flag : Bool) :
    Denotes (toString flag).toList fun x ↦ ∃ place, x = .boolean place flag := by
  cases flag with
  | true => exact ⟨⟨_, _, rfl, rfl⟩, fun _ ↦ ⟨_, rfl, _, rfl⟩⟩
  | false => exact ⟨⟨_, _, rfl, rfl⟩, fun _ ↦ ⟨_, rfl, _, rfl⟩⟩

theorem value_isDigit (hc : c.isDigit = true) (depth : Nat) (more : Place) :
    value depth (c :: more) = numeric (c :: more) := by
  rw [value.eq_def]
  split
  all_goals first | rfl | (rename_i heq; cases heq; cases hc)

theorem isBlank_isDigit (hc : c.isDigit = true) : isBlank c = false := by
  refine Bool.eq_false_iff.mpr fun hblank ↦ ?_
  rcases Bool.or_eq_true_iff.mp hblank with h | h
  all_goals
    rw [of_decide_eq_true h] at hc
    cases hc

theorem denotes_toString_nat (h : n < signedLimit) :
    Denotes (toString n).toList fun x ↦ ∃ place, x = .integer place n := by
  have hdigits := Numeral.spells_toDigits n
  obtain ⟨c, cs, hcs⟩ := List.exists_cons_of_ne_nil hdigits.ne_nil
  have hc : c.isDigit = true := hdigits.digits c (hcs ▸ List.mem_cons_self)
  rw [Nat.toString_eq_ofList_toDigits, String.toList_ofList]
  refine ⟨⟨c, cs, hcs, isBlank_isDigit hc⟩, fun rest ↦ ?_⟩
  obtain ⟨place, hread⟩ := numeric_toDigits h rest
  refine ⟨_, ?_, place, rfl⟩
  rw [hcs, List.cons_append] at hread ⊢
  rw [value_isDigit hc, hread]

/-! ### Arrays of texts -/

def Texts (x : Toml) (ss : List String) : Prop :=
  ∃ place items, x = .array place items ∧
    List.Forall₂ (fun item s ↦ ∃ place, item = Toml.text place s) items ss

/-- A text in an array with the gaps around it. -/
theorem element_quote {input next : Place} (depth : Nat) (s : String)
    (hinput : gap false input = .ok ((quote s).toList ++ rest)) (hquote : rest.head? ≠ some '"')
    (hapostrophe : rest.head? ≠ some '\'') (hrest : gap false rest = .ok next) :
    element (value depth) input = .ok (.text ((quote s).toList ++ rest) s, next) := by
  rw [element, hinput, ok_bind, value_quote depth s hquote hapostrophe, ok_bind]
  dsimp only
  rw [hrest]
  rfl

theorem gap_break (rest : Place) : gap false ('\n' :: rest) = gap false rest := rfl

theorem gap_blank (rest : Place) : gap false (' ' :: rest) = gap false rest := rfl

theorem gap_quote (s : String) (rest : Place) :
    gap false ((quote s).toList ++ rest) = .ok ((quote s).toList ++ rest) := by
  obtain ⟨c, more, heq, hc⟩ := quote_cons s
  rw [heq]
  rcases hc with rfl | rfl
  · rfl
  · rfl

/-- An array is read if its items are, and a comma behind the last one does not count. -/
theorem value_array {depth : Nat} {start rest next : Place} {x : Toml} {xs : List Toml}
    (h : someWith (element (value depth)) ',' (start.length + 1) start = .ok (x :: xs, rest))
    (hclose : gap false (skipComma rest) = .ok (']' :: next)) :
    value (depth + 1) ('[' :: start) = .ok (.array ('[' :: start) (x :: xs), next) := by
  have helements : elements (value depth) ('[' :: start).length start = .ok (x :: xs, next) := by
    rw [elements, List.length_cons, manyWith_of_someWith h, ok_bind]
    change (gap false (skipComma rest) >>= _) = _
    rw [hclose, ok_bind, expect_cons]
    rfl
  rw [value.eq_def]
  change (commit (elements (value depth) ('[' :: start).length start) >>= _) = _
  rw [helements]
  rfl

theorem denotes_bracket (s : String) :
    Denotes ('[' :: ((quote s).toList ++ [']'])) (Texts · [s]) := by
  refine ⟨⟨_, _, rfl, rfl⟩, fun rest ↦ ?_⟩
  have hitem := element_quote 78 s (gap_quote s (']' :: '\n' :: rest)) (by simp) (by simp) rfl
  have hread := value_array (someWith_end hitem (by simp)) rfl
  rw [List.cons_append, List.append_assoc, List.singleton_append]
  exact ⟨_, hread, _, _, rfl, .cons ⟨_, rfl⟩ .nil⟩

/-- What stands behind the opening bracket of an array with its texts on lines of their own. -/
def lines (ss : List String) (rest : Place) : Place :=
  '\n' :: (ss.flatMap fun s ↦ [' ', ' ', ' ', ' '] ++ ((quote s).toList ++ [',', '\n']))
    ++ ']' :: rest

theorem lines_cons (s : String) (ss : List String) (rest : Place) :
    lines (s :: ss) rest
      = '\n' :: ' ' :: ' ' :: ' ' :: ' ' :: ((quote s).toList ++ ',' :: lines ss rest) := by
  simp [lines]

theorem length_lines (ss : List String) (rest : Place) : ss.length ≤ (lines ss rest).length := by
  induction ss with
  | nil => exact Nat.zero_le _
  | cons s ss ih =>
    rw [lines_cons]
    simp only [List.length_cons, List.length_append]
    omega

theorem gap_lines (s : String) (ss : List String) (rest : Place) :
    gap false (lines (s :: ss) rest) = .ok ((quote s).toList ++ ',' :: lines ss rest) := by
  rw [lines_cons, gap_break, gap_blank, gap_blank, gap_blank, gap_blank, gap_quote]

theorem misses_bracket (depth bound : Nat) (rest : Place) :
    Misses (someWith (element (value depth)) ',' bound (lines [] rest)) := by
  have hvalue : Misses (value depth (']' :: rest)) := by
    rw [value.eq_def]
    cases rest <;> exact ⟨_, rfl⟩
  cases bound with
  | zero => exact ⟨_, rfl⟩
  | succ bound =>
    rw [someWith, element]
    exact (hvalue.bind _).bind _

/-- Texts on lines of their own are read one by one. -/
theorem someWith_lines (depth : Nat) (s : String) (ss : List String) {bound : Nat}
    (hbound : ss.length ≤ bound) (rest : Place) :
    ∃ x xs, someWith (element (value depth)) ',' (bound + 1) (lines (s :: ss) rest)
        = .ok (x :: xs, ',' :: lines [] rest) ∧
      List.Forall₂ (fun item s ↦ ∃ place, item = Toml.text place s) (x :: xs) (s :: ss) := by
  induction ss generalizing s bound with
  | nil =>
    have hitem := element_quote depth s (gap_lines s [] rest) (by simp) (by simp) rfl
    exact ⟨_, _, someWith_stop hitem (misses_bracket depth bound rest), .cons ⟨_, rfl⟩ .nil⟩
  | cons s' ss ih =>
    have hitem := element_quote depth s (gap_lines s (s' :: ss) rest) (by simp) (by simp) rfl
    obtain ⟨bound, rfl⟩ := Nat.exists_eq_add_of_le' (Nat.le_trans (Nat.succ_pos _) hbound)
    obtain ⟨x, xs, hread, hxs⟩ := ih s' (Nat.le_of_succ_le_succ hbound)
    exact ⟨_, _, someWith_more hitem hread, .cons ⟨_, rfl⟩ hxs⟩

theorem denotes_lines (s : String) (ss : List String) :
    Denotes ('[' :: lines (s :: ss) []) (Texts · (s :: ss)) := by
  refine ⟨⟨_, _, rfl, rfl⟩, fun rest ↦ ?_⟩
  have hlines : lines (s :: ss) [] ++ '\n' :: rest = lines (s :: ss) ('\n' :: rest) := by
    simp [lines]
  obtain ⟨x, xs, hsome, hxs⟩ := someWith_lines 78 s ss
    (Nat.le_of_succ_le (length_lines (s :: ss) _)) ('\n' :: rest)
  have hread := value_array hsome rfl
  rw [List.cons_append, hlines]
  exact ⟨_, hread, _, _, rfl, hxs⟩

end Values

/-! ## Lines -/

/-- A line with a key and a value: how the value is written and what it means. -/
structure Line where
  /-- The key. -/
  name : String
  /-- The value as it is written. -/
  written : List Char
  /-- What the value means. -/
  Means : Toml → Prop

namespace Line

def text (line : Line) : List Char :=
  line.name.toList ++ (' ' :: '=' :: ' ' :: (line.written ++ ['\n']))

/-- A line whose key needs no quotes and whose value is read as what it means. -/
structure Sound (line : Line) : Prop where
  /-- The key is not empty. -/
  ne_nil : line.name.toList ≠ []
  /-- The key needs no quotes. -/
  bare : ∀ c ∈ line.name.toList, isBare c = true
  /-- The value is read. -/
  denotes : Denotes line.written line.Means

end Line

section Lines

variable {line : Line} {rest : Place} {root : Entries}

/-- A line begins with no character that has a meaning of its own. -/
theorem Line.Sound.ne_cons (h : line.Sound) {d : Char} (hd : isBare d = false)
    (more rest : Place) : line.name.toList ++ more ≠ d :: rest := by
  obtain ⟨c, cs, hcs⟩ := List.exists_cons_of_ne_nil h.ne_nil
  intro heq
  rw [hcs, List.cons_append] at heq
  have hbare := h.bare c (hcs ▸ List.mem_cons_self)
  rw [(List.cons.inj heq).1, hd] at hbare
  cases hbare

theorem Line.Sound.blanks_eq (h : line.Sound) (more : Place) :
    blanks (line.name.toList ++ more) = line.name.toList ++ more := by
  have hspace := h.ne_cons (d := ' ') rfl more
  have htab := h.ne_cons (d := '\t') rfl more
  generalize line.name.toList ++ more = input at hspace htab ⊢
  cases input with
  | nil => rfl
  | cons c input =>
    have hc : c ≠ ' ' ∧ c ≠ '\t' :=
      ⟨fun heq ↦ hspace input (by rw [heq]), fun heq ↦ htab input (by rw [heq])⟩
    exact List.dropWhile_cons_of_neg (by simpa [isBlank] using hc)

theorem Line.Sound.simpleKey_eq (h : line.Sound) (more : Place) :
    simpleKey (line.name.toList ++ ' ' :: more)
      = .ok (⟨line.name, line.name.toList ++ ' ' :: more⟩, ' ' :: more) := by
  have hname : (line.name.toList ++ ' ' :: more).takeWhile isBare = line.name.toList := by
    rw [List.takeWhile_append_of_pos h.bare, List.takeWhile_cons_of_neg (by decide),
      List.append_nil]
  have hempty : line.name.toList.isEmpty = false := List.isEmpty_eq_false_iff.mpr h.ne_nil
  rw [simpleKey]
  · dsimp only
    rw [hname, hempty, if_neg Bool.false_ne_true, List.drop_left, ok_bind, String.ofList_toList]
    rfl
  · exact h.ne_cons rfl _
  · exact h.ne_cons rfl _

theorem Line.Sound.key_eq (h : line.Sound) (rest : Place) :
    ∃ place, key (line.name.toList ++ ' ' :: '=' :: rest)
      = .ok (([], ⟨line.name, place⟩), '=' :: rest) := by
  have hpart : keyPart (line.name.toList ++ ' ' :: '=' :: rest)
      = .ok (⟨line.name, line.name.toList ++ ' ' :: '=' :: rest⟩, '=' :: rest) := by
    rw [keyPart, h.blanks_eq, h.simpleKey_eq, ok_bind]
    rfl
  refine ⟨line.name.toList ++ ' ' :: '=' :: rest, ?_⟩
  rw [key, someWith_end hpart (by simp), ok_bind]
  rfl

theorem Line.Sound.statement_eq (h : line.Sound) (rest : Place) :
    ∃ place x, statement (line.text ++ rest) = .ok (some (.entry [] ⟨line.name, place⟩ x), rest) ∧
      line.Means x := by
  obtain ⟨x, hread, hx⟩ := h.denotes.reads rest
  obtain ⟨place, hkey⟩ := h.key_eq (' ' :: (line.written ++ '\n' :: rest))
  have htext : line.text ++ rest
      = line.name.toList ++ ' ' :: '=' :: ' ' :: (line.written ++ '\n' :: rest) := by
    simp [Line.text]
  have hblanks : blanks (' ' :: (line.written ++ '\n' :: rest)) = line.written ++ '\n' :: rest := by
    obtain ⟨c, cs, hcs, hc⟩ := h.denotes.opens
    rw [hcs]
    exact List.dropWhile_cons_of_neg (Bool.eq_false_iff.mp hc)
  refine ⟨place, x, ?_, hx⟩
  rw [htext, statement]
  · rw [pair, hkey, ok_bind]
    dsimp only
    rw [expect_cons, ok_bind, hblanks, hread]
    rfl
  · exact h.ne_cons rfl _ _
  all_goals exact fun _ ↦ h.ne_cons rfl _ _

/-- A key that is not in use is added at the end. -/
theorem alter_of_fresh {key : PlacedKey} {f : Option Toml → Option Toml} {x : Toml}
    (hfresh : key.name ∉ root.map fun entry ↦ entry.1.name) (hf : f none = some x) :
    alter key f root = some (root ++ [(key, x)]) := by
  induction root with
  | nil =>
    rw [alter, hf]
    rfl
  | cons entry root ih =>
    obtain ⟨hne, hfresh⟩ := not_or.mp (mt List.mem_cons.mpr hfresh)
    rw [alter, if_neg fun heq ↦ hne heq.symm, ih hfresh]
    rfl

/-- A line with a key that is not in use adds an entry. -/
theorem Line.Sound.extend_eq (h : line.Sound)
    (hfresh : line.name ∉ root.map fun entry ↦ entry.1.name) (bound : Nat) (rest : Place) :
    ∃ entry, entry.1.name = line.name ∧ line.Means entry.2 ∧
      Draft.extend ⟨root, []⟩ (bound + 1) (line.text ++ rest)
        = Draft.extend ⟨root ++ [entry], []⟩ bound rest := by
  obtain ⟨place, x, hread, hx⟩ := h.statement_eq rest
  have hobey : Draft.obey ⟨root, []⟩ (.entry [] ⟨line.name, place⟩ x)
      = some ⟨root ++ [(⟨line.name, place⟩, x)], []⟩ := by
    have hassign : assign ⟨line.name, place⟩ x [] root
        = some (root ++ [(⟨line.name, place⟩, x)]) := alter_of_fresh hfresh rfl
    rw [Draft.obey, within, hassign]
    rfl
  refine ⟨(⟨line.name, place⟩, x), rfl, hx, ?_⟩
  have hblanks : blanks (line.text ++ rest) = line.text ++ rest := by
    rw [Line.text, List.append_assoc]
    exact h.blanks_eq _
  have hne : line.text ++ rest ≠ [] := by simp [Line.text]
  rw [Draft.extend, hblanks]
  split
  · rename_i heq
    exact absurd heq hne
  · rw [hread]
    dsimp only
    rw [Draft.obeyAt, hobey]
    rfl

/-- **Documents.** A document of lines with different keys has an entry for each of them. -/
theorem extend_lines {ls : List Line} (hsound : ∀ line ∈ ls, line.Sound)
    (hnodup : (ls.map Line.name).Nodup)
    (hfresh : ∀ line ∈ ls, line.name ∉ root.map fun entry ↦ entry.1.name) {bound : Nat}
    (hbound : ls.length < bound) :
    ∃ entries, Draft.extend ⟨root, []⟩ bound (ls.flatMap Line.text) = .ok ⟨root ++ entries, []⟩ ∧
      List.Forall₂ (fun line entry ↦ entry.1.name = line.name ∧ line.Means entry.2) ls entries := by
  induction ls generalizing root bound with
  | nil =>
    obtain ⟨bound, rfl⟩ := Nat.exists_eq_add_of_le' hbound
    refine ⟨[], ?_, .nil⟩
    rw [List.append_nil]
    rfl
  | cons line ls ih =>
    obtain ⟨hline, hsound⟩ := List.forall_mem_cons.mp hsound
    obtain ⟨hlater, hnodup⟩ := List.nodup_cons.mp hnodup
    obtain ⟨hhead, hfresh⟩ := List.forall_mem_cons.mp hfresh
    obtain ⟨bound, rfl⟩ := Nat.exists_eq_add_of_le' (Nat.lt_of_le_of_lt (Nat.zero_le _) hbound)
    obtain ⟨entry, hname, hmeans, hextend⟩ :=
      hline.extend_eq hhead bound (ls.flatMap Line.text)
    have hnext : ∀ line' ∈ ls, line'.name ∉ (root ++ [entry]).map fun entry ↦ entry.1.name := by
      intro line' hline' hmem
      rw [List.map_append, List.map_singleton, hname, List.mem_append, List.mem_singleton] at hmem
      rcases hmem with hmem | heq
      · exact hfresh line' hline' hmem
      · exact hlater (heq ▸ List.mem_map_of_mem hline')
    obtain ⟨entries, hentries, hall⟩ := ih hsound hnodup hnext (Nat.lt_of_succ_lt_succ hbound)
    refine ⟨entry :: entries, ?_, .cons ⟨hname, hmeans⟩ hall⟩
    rw [List.flatMap_cons, hextend, hentries, List.append_assoc, List.singleton_append]

end Lines

end BookmarkGraph.Toml.Scan
