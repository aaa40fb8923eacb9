import BookmarkGraph.Toml.Text
import Mathlib.Data.List.TakeWhile

/-!
# Texts are read back from their quotation

A text is written between quotation marks, between apostrophes, or between one of them three times
in a row. Each of the four forms has a reader, and each reader gives back what its writer was
given: `basic_writeBasic`, `literal_eq`, `multiBasic_writeMultiBasic` and `multiLiteral_eq`. The two
forms with escapes read a single character in the same way, `Unescapes`.

In the triple forms up to two delimiters in a row belong to the text, and they do so even in front
of the three that end it. The lemmas about these forms therefore carry the delimiters that stand
directly in front, `k` of them, through the induction.

The forms without escapes cannot hold every text, but they are only taken where they can
(`form_cases`). So every text is read back from the form that is taken for it: `text_quote`.
-/

namespace BookmarkGraph.Toml

open Scan

/-! ## Single characters -/

section Characters

variable {c : Char}

theorem isPlain_of_not (hcontrol : isControl c = false) (hbreak : c ≠ '\n') (hquote : c ≠ '"')
    (hbackslash : c ≠ '\\') : isPlain c = true := by
  simp [isPlain, isInLine, hcontrol, hbreak, hquote, hbackslash]

theorem isLiteral_of_not (hcontrol : isControl c = false) (hbreak : c ≠ '\n')
    (hapostrophe : c ≠ '\'') : isLiteral c = true := by
  simp [isLiteral, isInLine, hcontrol, hbreak, hapostrophe]

theorem codePoint?_of_isControl (h : isControl c = true) :
    codePoint? ['0', '0', hexDigit (c.toNat / 16), hexDigit (c.toNat % 16)] = some c := by
  have hall : ∀ n : Fin 128, codePoint? ['0', '0', hexDigit (n.val / 16), hexDigit (n.val % 16)]
      = some (Char.ofNat n.val) := by decide
  have hlt : c.toNat < 128 := by
    simp only [isControl, Bool.or_eq_true, Bool.and_eq_true, decide_eq_true_eq] at h
    omega
  rw [hall ⟨c.toNat, hlt⟩, Char.ofNat_toNat]

/-- The three ways in which a character is written between quotation marks. -/
theorem escape_cases (c : Char) :
    (∃ l, escape c = ['\\', l] ∧ escapeOf? l = some c) ∨
      (∃ a b, escape c = ['\\', 'u', '0', '0', a, b] ∧ codePoint? ['0', '0', a, b] = some c) ∨
      escape c = [c] ∧ isControl c = false ∧ c ≠ '\\' := by
  rw [escape.eq_def]
  split
  · exact .inl ⟨'b', rfl, rfl⟩
  · exact .inl ⟨'t', rfl, rfl⟩
  · exact .inl ⟨'f', rfl, rfl⟩
  · exact .inl ⟨'r', rfl, rfl⟩
  · exact .inl ⟨'\\', rfl, rfl⟩
  · rename_i hbackslash
    split
    · rename_i hcontrol
      exact .inr (.inl ⟨_, _, rfl, codePoint?_of_isControl hcontrol⟩)
    · rename_i hcontrol
      exact .inr (.inr ⟨rfl, Bool.eq_false_iff.mpr hcontrol, hbackslash⟩)

/-- A reader for characters as they are written between quotation marks. -/
structure Unescapes (read : Scanner (List Char)) : Prop where
  /-- A letter stands for a character. -/
  letter {l c : Char} : escapeOf? l = some c → ∀ more,
    read ('\\' :: l :: more) = push c (read more)
  /-- A code point stands for a character. -/
  code {a b c : Char} : codePoint? ['0', '0', a, b] = some c → ∀ more,
    read ('\\' :: 'u' :: '0' :: '0' :: a :: b :: more) = push c (read more)
  /-- A character stands for itself. -/
  plain {c : Char} : isPlain c = true → ∀ more, read (c :: more) = push c (read more)

theorem Unescapes.escape_eq {read : Scanner (List Char)} (h : Unescapes read) (hquote : c ≠ '"')
    (hbreak : c ≠ '\n') (more : List Char) : read (escape c ++ more) = push c (read more) := by
  rcases escape_cases c with ⟨l, hc, hl⟩ | ⟨a, b, hc, hcode⟩ | ⟨hc, hcontrol, hbackslash⟩
  · rw [hc]
    exact h.letter hl more
  · rw [hc]
    exact h.code hcode more
  · rw [hc]
    exact h.plain (isPlain_of_not hcontrol hbreak hquote hbackslash) more

end Characters

/-! ## Between quotation marks -/

section Basic

variable {cs rest : List Char}

theorem unescapes_basic : Unescapes basic where
  letter {l c} h more := by
    rw [escapeOf?.eq_def] at h
    split at h <;> first | (cases h; rfl) | cases h
  code {a b c} h more := by rw [basic, h]
  plain {c} h more := by
    have hquote : c ≠ '"' := by rintro rfl; cases h
    have hbackslash : c ≠ '\\' := by rintro rfl; cases h
    rw [basic, if_pos h]
    all_goals simp_all

theorem basic_writeBasic (cs rest : List Char) :
    basic (writeBasic cs ++ '"' :: rest) = .ok (cs, rest) := by
  induction cs using writeBasic.induct with
  | case1 => rfl
  | case2 cs ih =>
    rw [writeBasic]
    exact (unescapes_basic.letter rfl _).trans (congrArg (push '"') ih)
  | case3 cs ih =>
    rw [writeBasic]
    exact (unescapes_basic.letter rfl _).trans (congrArg (push '\n') ih)
  | case4 c cs hquote hbreak ih =>
    rw [writeBasic, List.append_assoc, unescapes_basic.escape_eq hquote hbreak, ih]
    · rfl
    · exact hquote
    · exact hbreak

end Basic

/-! ## Between apostrophes -/

theorem literal_eq {cs : List Char} (h : ∀ c ∈ cs, isLiteral c = true) (rest : List Char) :
    literal (cs ++ '\'' :: rest) = .ok (cs, rest) := by
  induction cs with
  | nil => rfl
  | cons c cs ih =>
    have hc := h c List.mem_cons_self
    have hapostrophe : c ≠ '\'' := by rintro rfl; cases hc
    rw [List.cons_append, literal, if_pos hc, ih fun d hd ↦ h d (List.mem_cons_of_mem c hd)]
    · rfl
    · exact hapostrophe

/-! ## Runs of delimiters -/

section Runs

variable {d : Char} {more rest : List Char}

theorem length_run (k : Nat) (hmore : more.head? ≠ some d) :
    ((List.replicate k d ++ more).takeWhile (· = d)).length = k := by
  have hrun : ∀ c ∈ List.replicate k d, decide (c = d) = true := fun c hc ↦
    decide_eq_true (List.eq_of_mem_replicate hc)
  have hnone : more.takeWhile (· = d) = [] := by
    cases more with
    | nil => rfl
    | cons c more =>
      have hc : c ≠ d := fun heq ↦ hmore (congrArg some heq)
      exact List.takeWhile_cons_of_neg (mt of_decide_eq_true hc)
  rw [List.takeWhile_append_of_pos hrun, hnone, List.append_nil, List.length_replicate]

theorem ending?_none {k : Nat} (hk : k < 3) (hmore : more.head? ≠ some d) :
    ending? d (List.replicate k d ++ more) = none := by
  rw [ending?, length_run k hmore]
  exact if_pos hk

/-- Up to two delimiters belong to the text that three more of them end. -/
theorem ending?_close {k : Nat} (hk : k < 3) (hrest : rest.head? ≠ some d) :
    ending? d (List.replicate k d ++ d :: d :: d :: rest) = some (List.replicate k d, rest) := by
  have hrun : List.replicate k d ++ d :: d :: d :: rest = List.replicate (k + 3) d ++ rest := by
    rw [← List.replicate_append_replicate, List.append_assoc]
    rfl
  have hinside : min 2 (k + 3 - 3) = k := by omega
  rw [hrun, ending?, length_run (k + 3) hrest]
  dsimp only
  rw [if_neg (by omega), hinside, List.drop_left' List.length_replicate]

end Runs

/-! ## Between triple quotation marks -/

section MultiBasic

variable {c l : Char} {cs more rest : List Char}

/-- What a text may go on with behind one or two quotation marks. -/
structure Follows (more : List Char) : Prop where
  /-- It is not another quotation mark. -/
  head : more.head? ≠ some '"'
  /-- The quotation marks belong to the text. -/
  quotes : quotesFault? more = none

theorem follows_letter (h : escapeOf? l = some c) (more : List Char) :
    Follows ('\\' :: l :: more) := by
  refine ⟨by simp, ?_⟩
  rw [escapeOf?.eq_def] at h
  split at h <;> first | (cases h; rfl) | cases h

theorem follows_break (more : List Char) : Follows ('\n' :: more) := ⟨by simp, rfl⟩

theorem follows_escape (hquote : c ≠ '"') (hbreak : c ≠ '\n') (more : List Char) :
    Follows (escape c ++ more) := by
  rcases escape_cases c with ⟨l, hc, hl⟩ | ⟨a, b, hc, hcode⟩ | ⟨hc, hcontrol, hbackslash⟩
  · rw [hc]
    exact follows_letter hl more
  · rw [hc]
    refine ⟨by simp, ?_⟩
    change (if (_ || (codePoint? ['0', '0', a, b]).isSome) = true then none else _) = none
    rw [hcode, Option.isSome_some, Bool.or_true, if_pos rfl]
  · have hplain := isPlain_of_not hcontrol hbreak hquote hbackslash
    rw [hc]
    refine ⟨by simpa using hquote, ?_⟩
    rw [quotesFault?, List.singleton_append, List.dropWhile_cons_of_neg (by simpa using hquote)]
    split <;> simp_all

/-- One or two quotation marks belong to a text that goes on behind them. -/
theorem Follows.quotes_run (h : Follows more) (k : Nat) :
    quotesFault? (List.replicate k '"' ++ more) = none := by
  induction k with
  | zero => exact h.quotes
  | succ k ih =>
    rw [quotesFault?.eq_def] at ih ⊢
    rw [List.replicate_succ, List.cons_append, List.dropWhile_cons_of_pos (by decide)]
    split at ih <;> simp_all

theorem unescapes_multiBasic : Unescapes (multiBasic false) where
  letter {l c} h more := by
    rw [escapeOf?.eq_def] at h
    split at h <;> first | (cases h; rfl) | cases h
  code {a b c} h more := by rw [multiBasic, h]
  plain {c} h more := by
    have hquote : c ≠ '"' := by rintro rfl; cases h
    have hbackslash : c ≠ '\\' := by rintro rfl; cases h
    have hbreak : c ≠ '\n' := by rintro rfl; cases h
    have hreturn : c ≠ '\r' := by rintro rfl; cases h
    rw [multiBasic, if_neg hquote, if_pos h]
    all_goals simp_all

/-- Quotation marks are read as they are if a text goes on behind them. -/
theorem multiBasic_run {k : Nat} (hk : k < 3) (h : Follows more)
    (hmore : multiBasic false more = .ok (cs, rest)) :
    multiBasic false (List.replicate k '"' ++ more) = .ok (List.replicate k '"' ++ cs, rest) := by
  induction k with
  | zero => exact hmore
  | succ k ih =>
    have hnone := ending?_none hk h.head
    have hquotes := h.quotes_run (k + 1)
    rw [List.replicate_succ, List.cons_append] at hnone hquotes ⊢
    rw [multiBasic, if_pos rfl, hnone]
    · dsimp only
      rw [hquotes]
      dsimp only
      rw [ih (by omega)]
      rfl
    all_goals simp

theorem multiBasic_ending {result : List Char × Place}
    (h : ending? '"' ('"' :: more) = some result) :
    multiBasic false ('"' :: more) = .ok result := by
  rw [multiBasic, if_pos rfl, h]
  all_goals simp

/-- A text is read back from between triple quotation marks. The quotation marks that stand directly
in front are read with it, because they may belong to the end. -/
theorem multiBasic_writeMultiBasic (cs : List Char) {k : Nat} (hk : k < 3)
    (hrest : rest.head? ≠ some '"') :
    multiBasic false (List.replicate k '"' ++ (writeMultiBasic k cs ++ '"' :: '"' :: '"' :: rest))
      = .ok (List.replicate k '"' ++ cs, rest) := by
  induction k, cs using writeMultiBasic.induct with
  | case1 k =>
    have hend := ending?_close hk hrest
    rw [writeMultiBasic, List.nil_append, List.append_nil]
    cases k with
    | zero => exact multiBasic_ending hend
    | succ k => exact multiBasic_ending hend
  | case2 k cs hlt ih =>
    have hread := ih (by omega)
    rw [List.replicate_succ', List.append_assoc, List.append_assoc] at hread
    rw [writeMultiBasic, if_pos hlt]
    exact hread
  | case3 k cs hlt ih =>
    rw [writeMultiBasic, if_neg hlt]
    refine multiBasic_run hk (follows_letter rfl _) ?_
    exact (unescapes_multiBasic.letter rfl _).trans (congrArg (push '"') (ih (by decide)))
  | case4 k cs ih =>
    rw [writeMultiBasic]
    refine multiBasic_run hk (follows_break _) ?_
    exact congrArg (push '\n') (ih (by decide))
  | case5 k c cs hquote hbreak ih =>
    rw [writeMultiBasic, List.append_assoc]
    · refine multiBasic_run hk (follows_escape hquote hbreak _) ?_
      have hread := unescapes_multiBasic.escape_eq hquote hbreak
        (writeMultiBasic 0 cs ++ '"' :: '"' :: '"' :: rest)
      exact hread.trans (congrArg (push c) (ih (by decide)))
    · exact hquote
    · exact hbreak

end MultiBasic

/-! ## Between triple apostrophes -/

section MultiLiteral

variable {c : Char} {cs more rest : List Char}

theorem multiLiteral_ending {result : List Char × Place}
    (h : ending? '\'' ('\'' :: more) = some result) :
    multiLiteral ('\'' :: more) = .ok result := by
  rw [multiLiteral, if_pos rfl, h]
  simp

theorem ne_of_inLine (h : c = '\n' ∨ isLiteral c = true) : c ≠ '\'' ∧ c ≠ '\r' := by
  constructor <;> (rintro rfl; revert h; decide)

theorem multiLiteral_plain (h : c = '\n' ∨ isLiteral c = true) (more : List Char) :
    multiLiteral (c :: more) = push c (multiLiteral more) := by
  obtain ⟨hapostrophe, hreturn⟩ := ne_of_inLine h
  rw [multiLiteral, if_neg hapostrophe, if_pos (by simpa using h)]
  simp [hreturn]

theorem goesOn_run (h : c = '\n' ∨ isLiteral c = true) (k : Nat) (more : List Char) :
    goesOn (List.replicate k '\'' ++ c :: more) = true := by
  obtain ⟨hapostrophe, hreturn⟩ := ne_of_inLine h
  have hrun : ∀ d ∈ List.replicate k '\'', decide (d = '\'') = true := fun d hd ↦
    decide_eq_true (List.eq_of_mem_replicate hd)
  rw [goesOn, List.dropWhile_append_of_pos hrun,
    List.dropWhile_cons_of_neg (by simpa using hapostrophe)]
  split
  · rfl
  · rename_i heq
    cases heq
    simpa using h
  · rename_i heq
    cases heq

/-- Apostrophes are read as they are if a text goes on behind them. -/
theorem multiLiteral_run {k : Nat} (hk : k < 3) (h : c = '\n' ∨ isLiteral c = true)
    (hmore : multiLiteral (c :: more) = .ok (cs, rest)) :
    multiLiteral (List.replicate k '\'' ++ c :: more)
      = .ok (List.replicate k '\'' ++ cs, rest) := by
  have hhead : (c :: more).head? ≠ some '\'' := by simpa using (ne_of_inLine h).1
  induction k with
  | zero => exact hmore
  | succ k ih =>
    have hnone := ending?_none hk hhead
    have hgoes := goesOn_run h (k + 1) more
    rw [List.replicate_succ, List.cons_append] at hnone hgoes ⊢
    rw [multiLiteral, if_pos rfl, hnone]
    · dsimp only
      rw [if_pos hgoes, ih (by omega)]
      rfl
    · simp

/-- A text is read back from between triple apostrophes, which may stand in it two in a row. The
apostrophes that stand directly in front are read with it, because they may belong to the end. -/
theorem multiLiteral_eq {k : Nat} (hcs : ∀ c ∈ cs, isControl c = false)
    (hrun : longestRun '\'' k cs < 3) (hrest : rest.head? ≠ some '\'') :
    multiLiteral (List.replicate k '\'' ++ (cs ++ '\'' :: '\'' :: '\'' :: rest))
      = .ok (List.replicate k '\'' ++ cs, rest) := by
  induction cs generalizing k with
  | nil =>
    have hend := ending?_close hrun hrest
    rw [List.nil_append, List.append_nil]
    cases k with
    | zero => exact multiLiteral_ending hend
    | succ k => exact multiLiteral_ending hend
  | cons c cs ih =>
    obtain ⟨hc, hlater⟩ := List.forall_mem_cons.mp hcs
    rw [longestRun] at hrun
    split at hrun
    · rename_i heq
      obtain rfl : c = '\'' := heq
      have hread := ih hlater hrun
      rwa [List.replicate_succ', List.append_assoc, List.append_assoc] at hread
    · rename_i hne
      have hline : c = '\n' ∨ isLiteral c = true := by
        by_cases hbreak : c = '\n'
        · exact .inl hbreak
        · exact .inr (isLiteral_of_not hc hbreak hne)
      have hread := ih (k := 0) hlater (Nat.lt_of_le_of_lt (Nat.le_max_right _ _) hrun)
      refine multiLiteral_run (Nat.lt_of_le_of_lt (Nat.le_max_left _ _) hrun) hline ?_
      exact (multiLiteral_plain hline _).trans (congrArg (push c) hread)

end MultiLiteral

/-! ## The plainest form -/

section Quote

variable {c : Char} {cs rest : List Char}

theorem le_longestRun (k : Nat) : k ≤ longestRun c k cs := by
  induction cs generalizing k with
  | nil => exact Nat.le_refl k
  | cons x cs ih =>
    rw [longestRun]
    split
    · exact Nat.le_of_succ_le (ih (k + 1))
    · exact Nat.le_max_left _ _

theorem longestRun_pos (h : c ∈ cs) (k : Nat) : 0 < longestRun c k cs := by
  induction cs generalizing k with
  | nil => exact absurd h List.not_mem_nil
  | cons x cs ih =>
    rw [longestRun]
    split
    · exact Nat.lt_of_lt_of_le (Nat.succ_pos k) (le_longestRun (k + 1))
    · rename_i hne
      have hmem : c ∈ cs := (List.mem_cons.mp h).resolve_left fun heq ↦ hne heq.symm
      exact Nat.lt_of_lt_of_le (ih hmem 0) (Nat.le_max_right _ _)

/-- What the two forms without escapes ask of a text. The other two can hold any text. -/
theorem form_cases (cs : List Char) :
    form cs = .basic ∨ form cs = .multiBasic ∨
      (form cs = .literal ∧ ∀ c ∈ cs, isLiteral c = true) ∨
      form cs = .multiLiteral ∧ (∀ c ∈ cs, isControl c = false) ∧ longestRun '\'' 0 cs < 3 := by
  rw [form]
  split
  · exact .inl rfl
  · split
    · rename_i h
      simp only [Bool.and_eq_true, Bool.not_eq_true', decide_eq_true_eq, List.any_eq_false,
        List.contains_eq_mem, decide_eq_false_iff_not] at h
      obtain ⟨⟨hcontrol, hrun⟩, hbreak⟩ := h
      refine .inr (.inr (.inl ⟨rfl, fun c hc ↦ ?_⟩))
      refine isLiteral_of_not (Bool.eq_false_iff.mpr (hcontrol c hc)) ?_ ?_
      · rintro rfl
        exact hbreak hc
      · rintro rfl
        exact absurd hrun (Nat.pos_iff_ne_zero.mp (longestRun_pos hc 0))
    · split
      · exact .inr (.inl rfl)
      · split
        · rename_i h
          simp only [Bool.and_eq_true, Bool.not_eq_true', decide_eq_true_eq, List.any_eq_false] at h
          obtain ⟨hcontrol, hrun⟩ := h
          exact .inr (.inr (.inr ⟨rfl, fun c hc ↦ Bool.eq_false_iff.mpr (hcontrol c hc),
            Nat.lt_succ_of_le hrun⟩))
        · split
          · exact .inr (.inl rfl)
          · exact .inl rfl

theorem text_basic {inner : List Char} (hinner : ∀ more, inner ≠ '"' :: '"' :: more)
    (h : basic inner = .ok (cs, rest)) : text ('"' :: inner) = .ok (String.ofList cs, rest) := by
  rw [text.eq_def]
  split
  · rename_i heq
    cases heq
    exact absurd rfl (hinner _)
  · rename_i heq
    cases heq
    rw [h]
    rfl
  all_goals simp_all

theorem text_literal {inner : List Char} (hinner : ∀ more, inner ≠ '\'' :: '\'' :: more)
    (h : literal inner = .ok (cs, rest)) : text ('\'' :: inner) = .ok (String.ofList cs, rest) := by
  rw [text.eq_def]
  split
  · rename_i heq
    cases heq
  · rename_i heq
    cases heq
  · rename_i heq
    cases heq
    exact absurd rfl (hinner _)
  · rename_i heq
    cases heq
    rw [h]
    rfl
  · simp_all

theorem text_multiBasic {inner : List Char}
    (h : multiBasic false (skipBreak inner) = .ok (cs, rest)) :
    text ('"' :: '"' :: '"' :: inner) = .ok (String.ofList cs, rest) := by
  rw [text, h]
  rfl

theorem text_multiLiteral {inner : List Char}
    (h : multiLiteral (skipBreak inner) = .ok (cs, rest)) :
    text ('\'' :: '\'' :: '\'' :: inner) = .ok (String.ofList cs, rest) := by
  rw [text, h]
  rfl

/-- A line break behind the opening delimiter is skipped, and only one that was put there. -/
theorem skipBreak_lead {inner : List Char}
    (h : '\n' ∉ cs → inner.head? ≠ some '\n' ∧ inner.head? ≠ some '\r') :
    skipBreak ((if cs.contains '\n' then ['\n'] else []) ++ inner) = inner := by
  split
  · rfl
  · rename_i hbreak
    obtain ⟨hbreak, hreturn⟩ := h (by simpa using hbreak)
    rw [List.nil_append, skipBreak.eq_def]
    split <;> simp_all

theorem head?_escape (c : Char) (more : List Char) :
    (escape c ++ more).head? = some '\\' ∨
      (escape c ++ more).head? = some c ∧ isControl c = false := by
  rcases escape_cases c with ⟨l, hc, -⟩ | ⟨a, b, hc, -⟩ | ⟨hc, hcontrol, -⟩
  · exact .inl (by rw [hc]; rfl)
  · exact .inl (by rw [hc]; rfl)
  · exact .inr ⟨by rw [hc]; rfl, hcontrol⟩

theorem writeBasic_ne (hrest : rest.head? ≠ some '"') (cs more : List Char) :
    writeBasic cs ++ '"' :: rest ≠ '"' :: '"' :: more := by
  intro heq
  rw [writeBasic.eq_def] at heq
  split at heq
  · obtain ⟨-, rfl⟩ := List.cons.inj heq
    exact hrest rfl
  · cases heq
  · cases heq
  · rename_i c cs hquote hbreak
    rw [List.append_assoc] at heq
    exact (follows_escape hquote hbreak _).head (congrArg List.head? heq)

theorem head?_writeMultiBasic (hbreak : '\n' ∉ cs) (more : List Char) :
    (writeMultiBasic 0 cs ++ '"' :: more).head? ≠ some '\n' ∧
      (writeMultiBasic 0 cs ++ '"' :: more).head? ≠ some '\r' := by
  rw [writeMultiBasic.eq_def]
  split
  · exact ⟨by simp, by simp⟩
  · exact ⟨by simp, by simp⟩
  · exact absurd List.mem_cons_self hbreak
  · rename_i c cs _ hne
    rw [List.append_assoc]
    rcases head?_escape c (writeMultiBasic 0 cs ++ '"' :: more) with hhead | ⟨hhead, hcontrol⟩
    · rw [hhead]
      exact ⟨by decide, by decide⟩
    · rw [hhead]
      refine ⟨by simpa using hne, ?_⟩
      rintro ⟨⟩
      cases hcontrol

/-- **Texts.** A text is read back from its plainest form. -/
theorem text_quote (s : String) (hquote : rest.head? ≠ some '"')
    (hapostrophe : rest.head? ≠ some '\'') :
    text ((quote s).toList ++ rest) = .ok (s, rest) := by
  have hs : String.ofList s.toList = s := String.ofList_toList
  rw [quote, String.toList_ofList]
  generalize s.toList = cs at hs ⊢
  subst hs
  rcases form_cases cs with hform | hform | ⟨hform, hcs⟩ | ⟨hform, hcs, hrun⟩
  all_goals simp only [hform, write, List.append_assoc, List.cons_append, List.nil_append]
  · exact text_basic (writeBasic_ne hquote cs) (basic_writeBasic cs rest)
  · refine text_multiBasic ?_
    rw [skipBreak_lead fun hbreak ↦ head?_writeMultiBasic hbreak _]
    exact multiBasic_writeMultiBasic cs (k := 0) (by decide) hquote
  · refine text_literal ?_ (literal_eq hcs rest)
    intro more heq
    cases cs with
    | nil =>
      obtain ⟨-, rfl⟩ := List.cons.inj heq
      exact hapostrophe rfl
    | cons c cs =>
      obtain ⟨rfl, -⟩ := List.cons.inj heq
      exact absurd (hcs '\'' List.mem_cons_self) (by decide)
  · refine text_multiLiteral ?_
    rw [skipBreak_lead]
    · exact multiLiteral_eq (k := 0) hcs hrun hapostrophe
    · intro hbreak
      cases cs with
      | nil => exact ⟨by simp, by simp⟩
      | cons c cs =>
        refine ⟨fun heq ↦ hbreak ?_, fun heq ↦ ?_⟩
        · cases heq
          exact List.mem_cons_self
        · cases heq
          exact absurd (hcs '\r' List.mem_cons_self) (by decide)

theorem quote_cons (s : String) :
    ∃ c more, (quote s).toList = c :: more ∧ (c = '"' ∨ c = '\'') := by
  rw [quote, String.toList_ofList]
  cases form s.toList with
  | basic => exact ⟨_, _, rfl, .inl rfl⟩
  | literal => exact ⟨_, _, rfl, .inr rfl⟩
  | multiBasic => exact ⟨_, _, rfl, .inl rfl⟩
  | multiLiteral => exact ⟨_, _, rfl, .inr rfl⟩

end Quote

end BookmarkGraph.Toml
