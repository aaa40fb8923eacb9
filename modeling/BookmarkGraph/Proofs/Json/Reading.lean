import BookmarkGraph.Proofs.Json.Writing
import Mathlib.Data.List.Nodup

/-!
# What is written is read back

Each reader gives back the value that a text stands for, in whichever way it is written, and leaves
what stands behind the text. This is said by `ReadsBack`, with one theorem for each reader.

A record is read member by member into a record that has the defaults at first. A `Column` collects
what one field contributes to this, and the induction over the members keeps that the columns whose
members were read are right already, while the others are still as they were at first.
-/

namespace BookmarkGraph.Json

open Scan

/-! ## Reading back -/

/-- A reader gives back what is written; `depth` levels of containers are enough for it. -/
structure ReadsBack {α : Type} (reader : Reader α) (depth : Nat) (Writes : Writing α) : Prop where
  /-- What is written is a value. -/
  form {x : α} {cs : List Char} : Writes x cs → Form .value cs
  /-- Reading ends behind the value. -/
  read {x : α} {cs ws : List Char} {bound d : Nat} {rest : List Symbol} : Writes x cs → Blank ws →
    cs.length ≤ bound → depth ≤ d → Stops rest →
    reader bound d (ws.map some ++ (cs.map some ++ rest)) = .ok (x, rest)

theorem ReadsBack.front {α : Type} {reader : Reader α} {depth : Nat} {Writes : Writing α}
    (h : ReadsBack reader depth Writes) {x : α} {cs : List Char} {bound d : Nat}
    {rest : List Symbol} (hx : Writes x cs) (hbound : cs.length ≤ bound) (hd : depth ≤ d)
    (hrest : Stops rest) : reader bound d (cs.map some ++ rest) = .ok (x, rest) :=
  h.read hx blank_nil hbound hd hrest

theorem ReadsBack.mono {α : Type} {reader : Reader α} {depth d : Nat} {Writes : Writing α}
    (h : ReadsBack reader depth Writes) (hd : depth ≤ d) : ReadsBack reader d Writes where
  form := h.form
  read hx hws hbound hd' := h.read hx hws hbound (Nat.le_trans hd hd')

/-! ## Simple values -/

section Simple

theorem readsBack_bool : ReadsBack Reader.bool 0 WritesBool where
  form h := h.form
  read h hws _ _ _ := by
    rw [Reader.bool, blanks_opens hws h.form.opens]
    cases h with
    | yes => rfl
    | no => rfl

theorem readsBack_string : ReadsBack Reader.string 0 WritesText where
  form h := h.form
  read h hws hbound _ _ := by
    rw [Reader.string, blanks_opens hws h.form.opens]
    obtain ⟨hchars⟩ := h
    exact text_eq hchars (Nat.le_of_succ_le hbound) _

/-- Digits are taken as long as the number that they make fits 64 bits. -/
theorem extend_eq (cs : List Char) (n : Nat) (h : Nat.ofDigitChars 10 cs n < UInt64.size) :
    extend n (cs.map fun c ↦ c.toNat - '0'.toNat) = (Nat.ofDigitChars 10 cs n, cs.length) := by
  have hmono : ∀ (cs : List Char) (n : Nat), n ≤ Nat.ofDigitChars 10 cs n := by
    intro cs
    induction cs with
    | nil => exact fun n ↦ Nat.le_refl n
    | cons c cs ih =>
      intro n
      rw [Nat.ofDigitChars_cons]
      have := ih (10 * n + (c.toNat - '0'.toNat))
      omega
  induction cs generalizing n with
  | nil => rfl
  | cons c cs ih =>
    rw [Nat.ofDigitChars_cons] at h ⊢
    have hfits : 10 * n + (c.toNat - '0'.toNat) < UInt64.size := Nat.lt_of_le_of_lt (hmono cs _) h
    rw [List.map_cons, extend, if_pos hfits, ih _ h]
    rfl

theorem value_whole {digits : List Nat} {n : Nat} (h : extend 0 digits = (n, digits.length)) :
    value false ⟨digits, none, none⟩ = .ok (.integer n) := by
  have hdropped : digits.length - digits.length = 0 := Nat.sub_self _
  rw [value, h]
  simp only [hdropped]
  rfl

theorem number_toDigits (n : UInt64) {rest : List Symbol} (hrest : Stops rest) :
    number false ((Nat.toDigits 10 n.toNat).map some ++ rest) = .ok (.integer n.toNat, rest) := by
  have hvalue : Nat.ofDigitChars 10 (Nat.toDigits 10 n.toNat) 0 = n.toNat :=
    Nat.ofDigitChars_ten_toDigits
  have hread : value false ⟨(Nat.toDigits 10 n.toNat).map fun c ↦ c.toNat - '0'.toNat, none, none⟩
      = .ok (.integer n.toNat) := by
    refine value_whole ?_
    rw [extend_eq _ _ (by rw [hvalue]; exact n.toNat_lt), hvalue, List.length_map]
  rw [number, numeral_whole (wholeForm_toDigits _) hrest]
  change (value false _ >>= _) = _
  rw [hread]
  rfl

theorem toUnsigned_natCast (n : UInt64) : Reader.toUnsigned (.integer n.toNat) = .ok n := by
  rw [Reader.toUnsigned, if_pos (Int.natCast_nonneg _), Int.toNat_natCast, UInt64.ofNat_toNat]

theorem unsigned_isDigit {c : Char} (hc : c.isDigit = true) {ws : List Char} (hws : Blank ws)
    (bound d : Nat) (input : List Symbol) :
    Reader.unsigned bound d (ws.map some ++ some c :: input)
      = number false (some c :: input) >>= fun (n, rest) ↦
        Reader.toUnsigned n >>= fun n ↦ .ok (n, rest) := by
  have hopens : Opens [c] := opens_of_isDigit hc
  have hblanks : blanks (ws.map some ++ some c :: input) = some c :: input :=
    blanks_opens hws hopens input
  have hdigit : Scan.isDigit (some c) = true := (isDigit_some c).trans hc
  rw [Reader.unsigned, hblanks]
  split
  · -- a digit is no sign
    rename_i hsign
    cases hsign
    exact absurd hc (by decide)
  · rename_i hsymbols
    cases hsymbols
    rw [if_pos hdigit]
    rfl
  · rename_i hsymbols
    cases hsymbols

theorem readsBack_unsigned : ReadsBack Reader.unsigned 0 WritesNumber where
  form h := h.form
  read {n cs ws bound d rest} h hws _ _ hrest := by
    obtain ⟨⟩ := h
    have hnumber := number_toDigits n hrest
    have hdigits := digits_toDigits n.toNat
    obtain ⟨c, cs, heq⟩ := List.exists_cons_of_ne_nil hdigits.1
    have hc : c.isDigit = true := hdigits.2 c (by rw [heq]; exact List.mem_cons_self)
    rw [heq, List.map_cons, List.cons_append] at hnumber ⊢
    rw [unsigned_isDigit hc hws, hnumber]
    change (Reader.toUnsigned (.integer n.toNat) >>= fun n ↦ .ok (n, rest)) = _
    rw [toUnsigned_natCast]
    rfl

end Simple

/-! ## Options and arrays -/

section Containers

variable {α : Type} {reader : Reader α} {depth : Nat} {Writes : Writing α}

theorem WritesText.head?_ne {s : String} {cs : List Char} (h : WritesText s cs) :
    cs.head? ≠ some 'n' := by
  obtain ⟨-⟩ := h
  rw [List.head?_cons]
  decide

theorem WritesNumber.head?_ne {n : UInt64} {cs : List Char} (h : WritesNumber n cs) :
    cs.head? ≠ some 'n' := by
  obtain ⟨⟩ := h
  intro hhead
  obtain ⟨hne, hdigits⟩ := digits_toDigits n.toNat
  exact absurd (hdigits 'n' (List.mem_of_mem_head? hhead)) (by decide)

/-- The null value must not be one of the values that may be missing. -/
theorem ReadsBack.optional (h : ReadsBack reader depth Writes)
    (hnull : ∀ {x cs}, Writes x cs → cs.head? ≠ some 'n') :
    ReadsBack (Reader.optional reader) depth (WritesOption Writes) where
  form hx := hx.form fun _ _ ↦ h.form
  read {x cs ws bound d rest} hx hws hbound hd hrest := by
    have hopens := (hx.form fun _ _ ↦ h.form).opens
    rw [Reader.optional, blanks_opens hws hopens]
    cases hx with
    | none => rfl
    | @some x _ hx =>
      split
      · rename_i hsymbols
        cases cs with
        | nil => exact absurd hopens.length_pos (Nat.lt_irrefl 0)
        | cons c cs =>
          cases hsymbols
          exact absurd rfl (hnull hx)
      · change (reader bound d (cs.map some ++ rest) >>= _) = _
        rw [h.front hx hbound hd hrest]
        rfl

theorem ReadsBack.elements (h : ReadsBack reader depth Writes) {first : Bool} {xs : List α}
    {cs : List Char} (hxs : WritesElements Writes first xs cs) {bound d : Nat}
    (hbound : cs.length ≤ bound) (hd : depth ≤ d) (rest : List Symbol) :
    Reader.elements reader d bound first (cs.map some ++ rest) = .ok (xs, rest) := by
  induction hxs generalizing bound with
  | @last first ws hws =>
    rw [List.length_append] at hbound
    obtain ⟨bound, rfl⟩ := Nat.exists_eq_add_of_le' (Nat.le_trans (Nat.le_add_left 1 _) hbound)
    rw [List.map_append, List.append_assoc, Reader.elements]
    change (Reader.nextElement first (ws.map some ++ some ']' :: rest) >>= _) = _
    rw [nextElement_close hws]
    change (Reader.close ']' (ws.map some ++ some ']' :: rest) >>= _) = _
    rw [close_bracket hws]
    rfl
  | @element first sep cs more x xs hsep hx hmore ih =>
    have hform := h.form hx
    have hpos := hform.length_pos
    rw [List.length_append, List.length_append] at hbound
    obtain ⟨bound, rfl⟩ : ∃ n, bound = n + 1 := Nat.exists_eq_add_of_le' (by omega)
    have hstops : Stops (more.map some ++ rest) :=
      (hmore.form fun _ _ ↦ h.form).stops_elements rest
    have hpos' := (hmore.form fun _ _ ↦ h.form).length_pos
    have hlength : cs.length ≤ bound := by omega
    rw [List.map_append, List.map_append, List.append_assoc, List.append_assoc, Reader.elements,
      nextElement_opens hsep hform.opens]
    change (reader bound d _ >>= _) = _
    rw [h.front hx hlength hd hstops]
    change (Reader.elements reader d bound false _ >>= _) = _
    rw [ih (by omega)]
    rfl

theorem ReadsBack.list (h : ReadsBack reader depth Writes) :
    ReadsBack (Reader.list reader) (depth + 1) (WritesList Writes) where
  form hxs := hxs.form fun _ _ ↦ h.form
  read {xs cs ws bound d rest} hxs hws hbound hd _ := by
    obtain ⟨d, rfl⟩ : ∃ n, d = n + 1 := Nat.exists_eq_add_of_le' (Nat.le_trans (by omega) hd)
    rw [Reader.list.eq_def, blanks_opens hws (hxs.form fun _ _ ↦ h.form).opens]
    obtain ⟨hxs⟩ := hxs
    exact h.elements hxs (Nat.le_of_succ_le hbound) (Nat.le_of_succ_le_succ hd) rest

end Containers

/-! ## Records -/

/-- A field of a record type: how it is written, how it is read, and where its value stands in a
record. -/
structure Column (α : Type) where
  /-- The type of the field. -/
  {β : Type}
  /-- The key of the field. -/
  name : String
  /-- The default of the field, if it has one. -/
  default : Option β
  /-- The texts that stand for a value of the field. -/
  Writes : Writing β
  /-- Reads a value of the field. -/
  reader : Reader β
  /-- Enters a value of the field into a record. -/
  set : α → β → α
  /-- The value of the field in a record. -/
  get : α → β

namespace Column

variable {α : Type}

def field (c : Column α) : Field α where
  name := c.name
  required := c.default.isNone
  read x := fun bound depth input ↦ do
    let (value, rest) ← c.reader bound depth input
    return (c.set x value, rest)

theorem read_field (c : Column α) (x : α) {value : c.β} {bound depth : Nat}
    {input rest : List Symbol} (h : c.reader bound depth input = .ok (value, rest)) :
    c.field.read x bound depth input = .ok (c.set x value, rest) := by
  change (c.reader bound depth input >>= _) = _
  rw [h]
  rfl

/-- The field that is written for a record. -/
def slot (c : Column α) (x : α) : Slot :=
  match c.default with
  | none => .given c.name c.Writes (c.get x)
  | some default => .filled c.name default c.Writes (c.get x)

@[simp] theorem slot_key (c : Column α) (x : α) : (c.slot x).key = c.name := by
  rw [slot]
  cases c.default <;> rfl

@[simp] theorem slot_writes (c : Column α) (x : α) : (c.slot x).Writes = c.Writes (c.get x) := by
  rw [slot]
  cases c.default <;> rfl

theorem slot_isDefault (c : Column α) (x : α) :
    (c.slot x).IsDefault ↔ c.default = some (c.get x) := by
  rw [slot]
  cases c.default with
  | none => exact ⟨False.elim, fun h ↦ by cases h⟩
  | some default => exact ⟨fun h ↦ congrArg some h.symm, fun h ↦ (Option.some.inj h).symm⟩

end Column

/-- Columns that make up a record type: their names are distinct, each can be read and set apart
from the others, and a record is determined by them. A record that is `blank` has all defaults. -/
structure LawfulColumns {α : Type} (columns : List (Column α)) (depth : Nat) (blank : α) :
    Prop where
  /-- The names are distinct. -/
  nodup : (columns.map Column.name).Nodup
  /-- Every value of a field is read back. -/
  readsBack : ∀ c ∈ columns, ReadsBack c.reader depth c.Writes
  /-- A blank record has the defaults. -/
  blank : ∀ c ∈ columns, ∀ x, c.default = some x → c.get blank = x
  /-- A value that is entered is there. -/
  get_set : ∀ c ∈ columns, ∀ x value, c.get (c.set x value) = value
  /-- Entering a value changes no other field. -/
  get_set_ne : ∀ c ∈ columns, ∀ d ∈ columns, c.name ≠ d.name →
    ∀ x value, d.get (c.set x value) = d.get x
  /-- Records with the same fields are equal. -/
  ext : ∀ x y, (∀ c ∈ columns, c.get x = c.get y) → x = y

section Members

variable {α : Type} {columns : List (Column α)} {depth : Nat} {blank x y : α} {seen : List String}
  {members : List Member}

/-- Members that complete the fields `seen` to the record `x`. -/
inductive Completes (columns : List (Column α)) (x : α) : List String → List Member → Prop
  | nil {seen : List String} : (∀ c ∈ columns, c.name ∈ seen ∨ c.default = some (c.get x)) →
    Completes columns x seen []
  | known {seen : List String} {c : Column α} {cs : List Char} {members : List Member} :
    c ∈ columns → c.name ∉ seen → c.Writes (c.get x) cs →
    Completes columns x (c.name :: seen) members →
    Completes columns x seen ((c.name, cs) :: members)
  | added {seen : List String} {key : String} {cs : List Char} {members : List Member} :
    key ∉ columns.map Column.name → Form .value cs → Completes columns x seen members →
    Completes columns x seen ((key, cs) :: members)

theorem Completes.form (h : Completes columns x seen members)
    (hcolumns : LawfulColumns columns depth blank) : ∀ m ∈ members, Form .value m.2 := by
  induction h with
  | nil _ => exact fun m hm ↦ absurd hm List.not_mem_nil
  | known hc _ hcs _ ih =>
    intro m hm
    rcases List.mem_cons.mp hm with rfl | hm
    · exact (hcolumns.readsBack _ hc).form hcs
    · exact ih m hm
  | added _ hcs _ ih =>
    intro m hm
    rcases List.mem_cons.mp hm with rfl | hm
    · exact hcs
    · exact ih m hm

/-- Members complete a record when each known field is among them at most once, and those that are
not have their defaults. -/
theorem Completes.of_distinct
    (hmembers : ∀ m ∈ members, (∃ c ∈ columns, c.name = m.1 ∧ c.Writes (c.get x) m.2) ∨
      m.1 ∉ columns.map Column.name ∧ Form .value m.2)
    (hdistinct : members.Pairwise fun m m' ↦ m.1 = m'.1 → m.1 ∉ columns.map Column.name)
    (hseen : ∀ m ∈ members, m.1 ∈ columns.map Column.name → m.1 ∉ seen)
    (hall : ∀ c ∈ columns, c.name ∈ seen ∨ c.name ∈ members.map Prod.fst ∨
      c.default = some (c.get x)) :
    Completes columns x seen members := by
  induction members generalizing seen with
  | nil =>
    refine .nil fun c hc ↦ ?_
    rcases hall c hc with hc | hc | hc
    · exact .inl hc
    · exact absurd hc List.not_mem_nil
    · exact .inr hc
  | cons m members ih =>
    obtain ⟨key, cs⟩ := m
    obtain ⟨hhead, htail⟩ := List.pairwise_cons.mp hdistinct
    have hmembers' := fun m hm ↦ hmembers m (List.mem_cons_of_mem _ hm)
    have hseen' := fun m hm ↦ hseen m (List.mem_cons_of_mem _ hm)
    rcases hmembers (key, cs) List.mem_cons_self with ⟨c, hc, rfl, hcs⟩ | ⟨hkey, hcs⟩
    · have hname : c.name ∈ columns.map Column.name := List.mem_map_of_mem hc
      refine .known hc (hseen _ List.mem_cons_self hname) hcs (ih hmembers' htail ?_ ?_)
      · intro m hm hknown hmem
        rcases List.mem_cons.mp hmem with heq | hmem
        · exact hhead m hm heq.symm hname
        · exact hseen' m hm hknown hmem
      · intro d hd
        rcases hall d hd with hd | hd | hd
        · exact .inl (List.mem_cons_of_mem _ hd)
        · rcases List.mem_cons.mp hd with hd | hd
          · exact .inl (hd ▸ List.mem_cons_self)
          · exact .inr (.inl hd)
        · exact .inr (.inr hd)
    · refine .added hkey hcs (ih hmembers' htail hseen' fun d hd ↦ ?_)
      rcases hall d hd with hname | hname | hname
      · exact .inl hname
      · rcases List.mem_cons.mp hname with hname | hname
        · exact absurd (List.mem_map_of_mem hd) (hname ▸ hkey)
        · exact .inr (.inl hname)
      · exact .inr (.inr hname)

theorem find?_field {c : Column α} (hnodup : (columns.map Column.name).Nodup) (hc : c ∈ columns) :
    (columns.map Column.field).find? (fun field ↦ field.name = c.name) = some c.field := by
  induction columns with
  | nil => cases hc
  | cons d columns ih =>
    obtain ⟨hfresh, hnodup⟩ := List.nodup_cons.mp hnodup
    rcases List.mem_cons.mp hc with rfl | hc
    · exact List.find?_cons_of_pos (decide_eq_true rfl)
    · have hne : d.name ≠ c.name := fun heq ↦ hfresh (heq ▸ List.mem_map_of_mem hc)
      rw [List.map_cons, List.find?_cons_of_neg]
      · exact ih hnodup hc
      · exact mt of_decide_eq_true hne

theorem find?_field_none {key : String} (hkey : key ∉ columns.map Column.name) :
    (columns.map Column.field).find? (fun field ↦ field.name = key) = none := by
  rw [List.find?_eq_none]
  intro field hfield heq
  obtain ⟨c, hc, rfl⟩ := List.mem_map.mp hfield
  exact hkey (of_decide_eq_true heq ▸ List.mem_map_of_mem hc)

/-- A record that is being read: the fields `seen` are those of `x`, the others are blank. -/
def Between (columns : List (Column α)) (blank x : α) (seen : List String) (y : α) : Prop :=
  ∀ c ∈ columns, c.get y = if c.name ∈ seen then c.get x else c.get blank

theorem LawfulColumns.between_set (h : LawfulColumns columns depth blank) {c : Column α}
    (hc : c ∈ columns) (hy : Between columns blank x seen y) :
    Between columns blank x (c.name :: seen) (c.set y (c.get x)) := by
  intro d hd
  by_cases heq : c.name = d.name
  · obtain rfl : c = d := List.inj_on_of_nodup_map h.nodup hc hd heq
    rw [h.get_set c hc, if_pos List.mem_cons_self]
  · have hiff : d.name ∈ c.name :: seen ↔ d.name ∈ seen := by
      rw [List.mem_cons, or_iff_right fun h ↦ heq h.symm]
    rw [h.get_set_ne c hc d hd heq, hy d hd, if_congr hiff rfl rfl]

/-- When all members are read, the record is complete. -/
theorem LawfulColumns.eq_of_between (h : LawfulColumns columns depth blank)
    (hall : ∀ c ∈ columns, c.name ∈ seen ∨ c.default = some (c.get x))
    (hy : Between columns blank x seen y) :
    y = x ∧ Reader.complete (columns.map Column.field) seen = true := by
  constructor
  · refine h.ext y x fun c hc ↦ ?_
    rw [hy c hc]
    split
    · rfl
    · rename_i hseen
      exact h.blank c hc _ ((hall c hc).resolve_left hseen)
  · rw [Reader.complete, List.all_map, List.all_eq_true]
    intro c hc
    rcases hall c hc with hseen | hdefault
    · have hcontains : seen.contains c.name = true := List.contains_iff_mem.mpr hseen
      simp only [Function.comp_apply, Column.field, hcontains, Bool.or_true]
    · simp only [Function.comp_apply, Column.field, hdefault, Option.isNone_some, Bool.not_false,
        Bool.true_or]

theorem recordMembers_member {fields : List (Field α)} {first : Bool} {sep text ws : List Char}
    {key : String} {bound : Nat} (hsep : Separates first sep) (hkey : WritesText key text)
    (hws : Blank ws) (hbound : text.length ≤ bound) (d : Nat) (input : List Symbol) :
    Reader.recordMembers fields d (bound + 1) first seen y
        (sep.map some ++ (text.map some ++ (ws.map some ++ some ':' :: input)))
      = match fields.find? fun field ↦ field.name = key with
        | some field =>
          if seen.contains key then .error .shape
          else field.read y bound d input >>= fun (y, rest) ↦
            Reader.recordMembers fields d bound false (key :: seen) y rest
        | none => Reader.skip bound input >>=
            Reader.recordMembers fields d bound false seen y := by
  obtain ⟨hchars⟩ := hkey
  rw [List.map_cons, List.cons_append, Reader.recordMembers, nextMember_quote hsep]
  change (Scan.text bound _ >>= _) = _
  rw [text_eq hchars (Nat.le_of_succ_le hbound)]
  simp only [bind, Except.bind, colon_eq hws]
  cases fields.find? fun field ↦ field.name = key with
  | none => rfl
  | some field => rfl

theorem recordMembers_close {fields : List (Field α)} {first : Bool} {ws : List Char}
    (hws : Blank ws) (hcomplete : Reader.complete fields seen = true) (d bound : Nat)
    (rest : List Symbol) :
    Reader.recordMembers fields d (bound + 1) first seen y (ws.map some ++ some '\x7d' :: rest)
      = .ok (y, rest) := by
  rw [Reader.recordMembers, nextMember_close hws]
  change (if Reader.complete fields seen = true then
    Reader.close '\x7d' (ws.map some ++ some '\x7d' :: rest) >>= _ else _) = _
  rw [if_pos hcomplete, close_brace hws]
  rfl

/-- **Members.** The members of a record are read to the record that they complete. -/
theorem LawfulColumns.recordMembers_eq (h : LawfulColumns columns depth blank)
    (hmembers : Completes columns x seen members) {first : Bool} {cs : List Char}
    (hcs : WritesMembers first members cs) (hy : Between columns blank x seen y) {bound d : Nat}
    (hbound : cs.length ≤ bound) (hd : depth ≤ d) (rest : List Symbol) :
    Reader.recordMembers (columns.map Column.field) d bound first seen y (cs.map some ++ rest)
      = .ok (x, rest) := by
  -- one unit of the bound is spent on each member, and every member has several characters
  induction hmembers generalizing first cs y bound with
  | nil hall =>
    obtain ⟨rfl, hcomplete⟩ := h.eq_of_between hall hy
    obtain @⟨_, ws, hws⟩ := hcs
    rw [List.length_append] at hbound
    obtain ⟨bound, rfl⟩ := Nat.exists_eq_add_of_le' (Nat.le_trans (Nat.le_add_left 1 _) hbound)
    rw [List.map_append, List.append_assoc]
    exact recordMembers_close hws hcomplete d bound rest
  | @known seen c value members hc hseen hvalue hmore ih =>
    obtain _ | @⟨_, sep, text, ws, ws', _, more, _, _, hsep, hkey, hws, hws', hrest⟩ := hcs
    have hform := hrest.form (hmore.form h)
    have hpos := hform.length_pos
    simp only [List.length_append, List.length_cons] at hbound
    obtain ⟨bound, rfl⟩ : ∃ n, bound = n + 1 := Nat.exists_eq_add_of_le' (by omega)
    have hcontains : seen.contains c.name = false :=
      Bool.eq_false_iff.mpr fun hmem ↦ hseen (List.contains_iff_mem.mp hmem)
    have hlength : value.length ≤ bound := by omega
    have hread := c.read_field y
      ((h.readsBack c hc).read hvalue hws' hlength hd (hform.stops_members rest))
    simp only [List.map_append, List.map_cons, List.append_assoc, List.cons_append]
    rw [recordMembers_member hsep hkey hws (by omega), find?_field h.nodup hc]
    simp only [hcontains, hread]
    exact ih hrest (h.between_set hc hy) (by omega)
  | @added seen key value members hunknown hvalue hmore ih =>
    obtain _ | @⟨_, sep, text, ws, ws', _, more, _, _, hsep, hkey, hws, hws', hrest⟩ := hcs
    have hform := hrest.form (hmore.form h)
    have hpos := hform.length_pos
    simp only [List.length_append, List.length_cons] at hbound
    obtain ⟨bound, rfl⟩ : ∃ n, bound = n + 1 := Nat.exists_eq_add_of_le' (by omega)
    have hlength : value.length ≤ bound := by omega
    have hskip := hvalue.skips ws' bound _ hws' hlength (hform.stops_members rest)
    simp only [List.map_append, List.map_cons, List.append_assoc, List.cons_append]
    rw [recordMembers_member hsep hkey hws (by omega), find?_field_none hunknown]
    simp only [hskip]
    exact ih hrest hy (by omega)

theorem slot_keys (columns : List (Column α)) (x : α) :
    (columns.map fun c ↦ c.slot x).map Slot.key = columns.map Column.name := by
  rw [List.map_map]
  exact List.map_congr_left fun c _ ↦ c.slot_key x

/-- What is kept of a record and what is added to it complete a blank record. -/
theorem LawfulColumns.completes (h : LawfulColumns columns depth blank) {kept added : List Member}
    (hkept : Keeps (columns.map fun c ↦ c.slot x) kept)
    (hadded : ∀ m ∈ added, m.1 ∉ columns.map Column.name ∧ Form .value m.2)
    (hperm : members.Perm (kept ++ added)) : Completes columns x [] members := by
  have hknown : ∀ m ∈ kept, ∃ c ∈ columns, c.name = m.1 ∧ c.Writes (c.get x) m.2 := by
    intro m hm
    obtain ⟨slot, hslot, hkey, hcs⟩ := hkept.mem m hm
    obtain ⟨c, hc, rfl⟩ := List.mem_map.mp hslot
    exact ⟨c, hc, c.slot_key x ▸ hkey, c.slot_writes x ▸ hcs⟩
  refine .of_distinct (fun m hm ↦ ?_) ?_ (fun _ _ _ ↦ List.not_mem_nil) fun c hc ↦ ?_
  · rcases List.mem_append.mp (hperm.mem_iff.mp hm) with hm | hm
    · exact .inl (hknown m hm)
    · exact .inr (hadded m hm)
  · have hsymm : ∀ {m m' : Member}, (m.1 = m'.1 → m.1 ∉ columns.map Column.name) →
        m'.1 = m.1 → m'.1 ∉ columns.map Column.name := fun hne heq ↦ heq ▸ hne heq.symm
    refine (hperm.pairwise_iff hsymm).mpr (List.pairwise_append.mpr ⟨?_, ?_, ?_⟩)
    · have hnodup : (kept.map Prod.fst).Nodup :=
        hkept.keys_sublist.nodup (slot_keys columns x ▸ h.nodup)
      exact (List.pairwise_map.mp hnodup).imp fun hne heq ↦ absurd heq hne
    · exact List.pairwise_of_forall_mem_list fun m hm _ _ _ ↦ (hadded m hm).1
    · intro m _ m' hm' heq hmem
      exact (hadded m' hm').1 (heq ▸ hmem)
  · rcases hkept.kept_or_default (c.slot x) (List.mem_map_of_mem hc) with hkey | hdefault
    · rw [c.slot_key] at hkey
      have hmem : c.name ∈ (kept ++ added).map Prod.fst := by
        rw [List.map_append]
        exact List.mem_append_left _ hkey
      exact .inr (.inl ((hperm.map Prod.fst).mem_iff.mpr hmem))
    · exact .inr (.inr ((c.slot_isDefault x).mp hdefault))

/-- **Records.** A record is read back from each way to write it. -/
theorem LawfulColumns.readsBack_record (h : LawfulColumns columns depth blank) :
    ReadsBack (Reader.record blank (columns.map Column.field)) (depth + 1)
      fun x ↦ WritesObject (columns.map fun c ↦ c.slot x) where
  form {x cs} hx := by
    refine hx.form fun slot hslot cs hcs ↦ ?_
    obtain ⟨c, hc, rfl⟩ := List.mem_map.mp hslot
    exact (h.readsBack c hc).form (c.slot_writes x ▸ hcs)
  read {x cs ws bound d rest} hx hws hbound hd _ := by
    have hopens : Opens cs := by
      obtain ⟨-, -, -, -⟩ := hx
      exact .cons rfl (by decide)
    obtain ⟨d, rfl⟩ : ∃ n, d = n + 1 := Nat.exists_eq_add_of_le' (Nat.le_trans (by omega) hd)
    rw [Reader.record.eq_def, blanks_opens hws hopens]
    obtain ⟨hkept, hadded, hperm, hmembers⟩ := hx
    rw [slot_keys] at hadded
    exact h.recordMembers_eq (h.completes hkept hadded hperm) hmembers
      (fun c _ ↦ (if_neg List.not_mem_nil).symm) (Nat.le_of_succ_le hbound)
      (Nat.le_of_succ_le_succ hd) rest

end Members

/-! ## Documents -/

theorem ReadsBack.document {α : Type} {reader : Reader α} {depth : Nat} {Writes : Writing α}
    (h : ReadsBack reader depth Writes) (hdepth : depth ≤ Reader.depthLimit) {x : α}
    {ws cs ws' : List Char} (hws : Blank ws) (hx : Writes x cs) (hws' : Blank ws') :
    reader.document ((ws ++ (cs ++ ws')).map some) = .ok x := by
  have hstops : Stops (ws'.map some) := List.append_nil (ws'.map some) ▸ stops_blank hws' stops_nil
  have hblanks : blanks (ws'.map some) = [] := by
    rw [← List.append_nil (ws'.map some), blanks_append hws']
    rfl
  have hbound : cs.length ≤ 2 * ((ws ++ (cs ++ ws')).map some).length + 2 := by
    rw [List.length_map, List.length_append, List.length_append]
    omega
  rw [Reader.document]
  generalize 2 * ((ws ++ (cs ++ ws')).map some).length + 2 = bound at hbound ⊢
  rw [List.map_append, List.map_append, h.read hx hws hbound hdepth hstops]
  change (if (blanks (ws'.map some)).isEmpty = true then Except.ok x else _) = _
  rw [hblanks]
  rfl

end BookmarkGraph.Json
