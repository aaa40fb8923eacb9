import BookmarkGraph.Proofs.Json.Grammar
import BookmarkGraph.Proofs.Text.Numeral

/-!
# Ways to write values

A value of a known type can be written in many ways: characters may be escaped or not, blanks may
stand between the parts, and the members of a record may come in any order, be left out when they
have their defaults, and stand among unknown ones. A `Writing` says which texts these are.

JSON values are printed on one line or with their parts on lines of their own. What both have in
common is collected in `Prints`, from which it follows that they are ways to write the values that
they print.
-/

namespace BookmarkGraph.Json

/-! ## Simple values -/

/-- Which texts stand for which values of a type. -/
abbrev Writing (α : Type) := α → List Char → Prop

/-- The two words for truth values. -/
inductive WritesBool : Writing Bool
  | yes : WritesBool true ['t', 'r', 'u', 'e']
  | no : WritesBool false ['f', 'a', 'l', 's', 'e']

/-- A number of 64 bits is written with its digits and nothing else. -/
inductive WritesNumber : Writing UInt64
  | digits {n : UInt64} : WritesNumber n (Nat.toDigits 10 n.toNat)

inductive WritesOption {α : Type} (Writes : Writing α) : Writing (Option α)
  | none : WritesOption Writes none ['n', 'u', 'l', 'l']
  | some {x : α} {cs : List Char} : Writes x cs → WritesOption Writes (some x) cs

/-! ## Arrays -/

/-- The elements of an array up to the closing bracket, from the first one or from a later one. -/
inductive WritesElements {α : Type} (Writes : Writing α) : Bool → Writing (List α)
  | last {first : Bool} {ws : List Char} : Blank ws → WritesElements Writes first [] (ws ++ [']'])
  | element {first : Bool} {sep cs rest : List Char} {x : α} {xs : List α} :
    Separates first sep → Writes x cs → WritesElements Writes false xs rest →
    WritesElements Writes first (x :: xs) (sep ++ (cs ++ rest))

/-- An array of values of one type. -/
inductive WritesList {α : Type} (Writes : Writing α) : Writing (List α)
  | elements {xs : List α} {cs : List Char} :
    WritesElements Writes true xs cs → WritesList Writes xs ('[' :: cs)

/-! ## Records -/

/-- A key and the text of a value. -/
abbrev Member := String × List Char

/-- The given members up to the closing brace, from the first one or from a later one. -/
inductive WritesMembers : Bool → List Member → List Char → Prop
  | last {first : Bool} {ws : List Char} : Blank ws → WritesMembers first [] (ws ++ ['\x7d'])
  | member {first : Bool} {sep text ws ws' cs rest : List Char} {key : String}
    {members : List Member} : Separates first sep → WritesText key text → Blank ws → Blank ws' →
    WritesMembers false members rest →
    WritesMembers first ((key, cs) :: members)
      (sep ++ (text ++ (ws ++ ':' :: (ws' ++ (cs ++ rest)))))

/-- A field of a record that is written. -/
structure Slot where
  /-- The key of the field. -/
  key : String
  /-- Whether the value of the field is its default. -/
  IsDefault : Prop
  /-- The texts that stand for the value of the field. -/
  Writes : List Char → Prop

def Slot.given {β : Type} (key : String) (Writes : Writing β) (x : β) : Slot :=
  ⟨key, False, Writes x⟩

def Slot.filled {β : Type} (key : String) (default : β) (Writes : Writing β) (x : β) : Slot :=
  ⟨key, x = default, Writes x⟩

/-- The members that are kept of a record when some of those that have their defaults are left
out. -/
inductive Keeps : List Slot → List Member → Prop
  | nil : Keeps [] []
  | keep {slot : Slot} {slots : List Slot} {cs : List Char} {members : List Member} :
    slot.Writes cs → Keeps slots members → Keeps (slot :: slots) ((slot.key, cs) :: members)
  | drop {slot : Slot} {slots : List Slot} {members : List Member} :
    slot.IsDefault → Keeps slots members → Keeps (slot :: slots) members

/-- A record, with its members in any order and well-formed members of other names added. -/
inductive WritesObject (slots : List Slot) : List Char → Prop
  | members {kept added members : List Member} {cs : List Char} : Keeps slots kept →
    (∀ m ∈ added, m.1 ∉ slots.map Slot.key ∧ Form .value m.2) → members.Perm (kept ++ added) →
    WritesMembers true members cs → WritesObject slots ('\x7b' :: cs)

/-! ## What is written is well-formed -/

theorem WritesChars.textForm {chars text : List Char} (h : WritesChars chars text) :
    TextForm text := by
  induction h with
  | close => exact .close
  | cons hc _ ih =>
    cases hc with
    | plain hc => exact .cons (.plain hc) ih
    | letter hl => exact .cons (.letter hl) ih
    | unit hunit => exact .cons (.unit hunit) ih
    | pair hhigh hlow =>
      rw [List.append_assoc]
      exact .cons (.unit hhigh) (.cons (.unit hlow) ih)

theorem digits_toDigits (n : Nat) : Digits (Nat.toDigits 10 n) :=
  ⟨Nat.toDigits_ne_nil, fun _ hc ↦ Nat.isDigit_of_mem_toDigits (by decide) (by decide) hc⟩

theorem wholeForm_toDigits (n : Nat) : WholeForm (Nat.toDigits 10 n) := by
  rcases Nat.eq_zero_or_pos n with rfl | hn
  · exact .zero
  · exact .digits (digits_toDigits n) (Numeral.head?_toDigits hn)

section Forms

variable {α : Type} {Writes : Writing α} {x : α} {xs : List α} {cs : List Char} {first : Bool}

theorem WritesText.form {s : String} (h : WritesText s cs) : Form .value cs := by
  obtain ⟨hchars⟩ := h
  exact .text hchars.textForm

theorem WritesBool.form {flag : Bool} (h : WritesBool flag cs) : Form .value cs := by
  cases h with
  | yes => exact .yes
  | no => exact .no

theorem WritesNumber.form {n : UInt64} (h : WritesNumber n cs) : Form .value cs := by
  obtain ⟨⟩ := h
  have hnumeral := NumeralForm.parts (wholeForm_toDigits n.toNat) .none .none
  rw [List.append_nil, List.append_nil] at hnumeral
  exact .positive hnumeral

theorem WritesOption.form (hWrites : ∀ x cs, Writes x cs → Form .value cs) {x : Option α}
    (h : WritesOption Writes x cs) : Form .value cs := by
  cases h with
  | none => exact .null
  | some hx => exact hWrites _ _ hx

theorem WritesElements.form (hWrites : ∀ x cs, Writes x cs → Form .value cs)
    (h : WritesElements Writes first xs cs) : Form (.elements first) cs := by
  induction h with
  | last hws => exact .lastElement hws
  | element hsep hx _ ih => exact .element hsep (hWrites _ _ hx) ih

theorem WritesList.form (hWrites : ∀ x cs, Writes x cs → Form .value cs)
    (h : WritesList Writes xs cs) : Form .value cs := by
  obtain ⟨helements⟩ := h
  exact .array (helements.form hWrites)

theorem WritesMembers.form {members : List Member} (hvalues : ∀ m ∈ members, Form .value m.2)
    (h : WritesMembers first members cs) : Form (.members first) cs := by
  induction h with
  | last hws => exact .lastMember hws
  | member hsep hkey hws hws' _ ih =>
    obtain ⟨hchars⟩ := hkey
    exact .member hsep hchars.textForm hws hws' (hvalues _ List.mem_cons_self)
      (ih fun m hm ↦ hvalues m (List.mem_cons_of_mem _ hm))

theorem Keeps.mem {slots : List Slot} {kept : List Member} (h : Keeps slots kept) :
    ∀ m ∈ kept, ∃ slot ∈ slots, slot.key = m.1 ∧ slot.Writes m.2 := by
  induction h with
  | nil => exact fun m hm ↦ absurd hm List.not_mem_nil
  | @keep slot slots cs _ hcs _ ih =>
    intro m hm
    rcases List.mem_cons.mp hm with rfl | hm
    · exact ⟨slot, List.mem_cons_self, rfl, hcs⟩
    · obtain ⟨slot', hslot', hm⟩ := ih m hm
      exact ⟨slot', List.mem_cons_of_mem slot hslot', hm⟩
  | drop _ _ ih =>
    intro m hm
    obtain ⟨slot', hslot', hm⟩ := ih m hm
    exact ⟨slot', List.mem_cons_of_mem _ hslot', hm⟩

theorem Keeps.keys_sublist {slots : List Slot} {kept : List Member} (h : Keeps slots kept) :
    (kept.map Prod.fst).Sublist (slots.map Slot.key) := by
  induction h with
  | nil => exact .slnil
  | keep _ _ ih => exact ih.cons_cons _
  | drop _ _ ih => exact ih.cons _

theorem Keeps.kept_or_default {slots : List Slot} {kept : List Member} (h : Keeps slots kept) :
    ∀ slot ∈ slots, slot.key ∈ kept.map Prod.fst ∨ slot.IsDefault := by
  induction h with
  | nil => exact fun slot hslot ↦ absurd hslot List.not_mem_nil
  | keep _ _ ih =>
    intro slot hslot
    rcases List.mem_cons.mp hslot with rfl | hslot
    · exact .inl List.mem_cons_self
    · exact (ih slot hslot).imp_left (List.mem_cons_of_mem _)
  | drop hdefault _ ih =>
    intro slot hslot
    rcases List.mem_cons.mp hslot with rfl | hslot
    · exact .inr hdefault
    · exact ih slot hslot

theorem WritesObject.form {slots : List Slot}
    (hslots : ∀ slot ∈ slots, ∀ cs, slot.Writes cs → Form .value cs)
    (h : WritesObject slots cs) : Form .value cs := by
  obtain ⟨hkept, hadded, hperm, hmembers⟩ := h
  refine .object (hmembers.form fun m hm ↦ ?_)
  rcases List.mem_append.mp (hperm.mem_iff.mp hm) with hm | hm
  · obtain ⟨slot, hslot, -, hcs⟩ := hkept.mem m hm
    exact hslots slot hslot m.2 hcs
  · exact (hadded m hm).2

end Forms

/-! ## Texts and digits that are printed -/

theorem writesChar_encodeChar (c : Char) : WritesChar c (encodeChar c) := by
  have hdigit : ∀ n < 16, HexDigit (Nat.digitChar n) n := fun n hn ↦ ⟨hn, .inl rfl⟩
  rw [encodeChar.eq_def]
  split
  iterate 7 exact .letter (by decide)
  · rename_i hquote hbackslash _ _ _ _ _
    split
    · rename_i hlow
      have hunit : HexUnit ['0', '0', Nat.digitChar (c.toNat / 16), Nat.digitChar (c.toNat % 16)]
          (((0 * 16 + 0) * 16 + c.toNat / 16) * 16 + c.toNat % 16) :=
        .digits (hdigit 0 (by decide)) (hdigit 0 (by decide)) (hdigit _ (by omega))
          (hdigit _ (Nat.mod_lt _ (by decide)))
      have hcode : ((0 * 16 + 0) * 16 + c.toNat / 16) * 16 + c.toNat % 16 = c.toNat := by omega
      rw [hcode] at hunit
      exact .unit hunit
    · rename_i hlow
      exact .plain ⟨Nat.le_of_not_lt hlow, hquote, hbackslash⟩

theorem writesText_quote (s : String) : WritesText s (quote s).toList := by
  have hchars : ∀ cs : List Char, WritesChars cs (cs.flatMap encodeChar ++ ['"']) := by
    intro cs
    induction cs with
    | nil => exact .close
    | cons c cs ih =>
      rw [List.flatMap_cons, List.append_assoc]
      exact .cons (writesChar_encodeChar c) ih
  rw [quote, String.toList_ofList, List.cons_append]
  exact .quoted (hchars s.toList)

/-! ## Parts between commas -/

section Joining

variable {lead closing gap : List Char} (text : Json → List Char)

theorem intercalate_comma (part : List Char) (parts : List (List Char)) :
    [','].intercalate (part :: parts) = part ++ parts.flatMap fun part ↦ ',' :: part := by
  induction parts generalizing part with
  | nil => rw [List.intercalate_singleton, List.flatMap_nil, List.append_nil]
  | cons next parts ih =>
    rw [List.intercalate_cons_cons, ih, List.flatMap_cons, List.append_assoc]
    rfl

theorem writesElements_intercalate (hlead : Blank lead) (hclosing : Blank closing)
    (items : List Json) :
    WritesElements (fun item cs ↦ cs = text item) true items
      ([','].intercalate (items.map fun item ↦ lead ++ text item) ++ (closing ++ [']'])) := by
  have hlater : ∀ items : List Json, WritesElements (fun item cs ↦ cs = text item) false items
      ((items.flatMap fun item ↦ ',' :: (lead ++ text item)) ++ (closing ++ [']'])) := by
    intro items
    induction items with
    | nil => exact .last hclosing
    | cons item items ih =>
      rw [List.flatMap_cons, List.append_assoc, List.cons_append, List.append_assoc]
      exact .element (.next blank_nil hlead) rfl ih
  cases items with
  | nil => exact .last hclosing
  | cons item items =>
    rw [List.map_cons, intercalate_comma, List.append_assoc, List.append_assoc, List.flatMap_map]
    exact .element (.first hlead) rfl (hlater items)

theorem writesMembers_intercalate (hlead : Blank lead) (hgap : Blank gap)
    (hclosing : Blank closing) (members : List (String × Json)) :
    WritesMembers true (members.map fun m ↦ (m.1, text m.2))
      ([','].intercalate
        (members.map fun m ↦ lead ++ ((quote m.1).toList ++ ':' :: (gap ++ text m.2)))
          ++ (closing ++ ['\x7d'])) := by
  have hmember : ∀ {first : Bool} {sep rest : List Char} (m : String × Json)
      {members : List (String × Json)}, Separates first sep →
      WritesMembers false (members.map fun m ↦ (m.1, text m.2)) rest →
      WritesMembers first ((m :: members).map fun m ↦ (m.1, text m.2))
        (sep ++ ((quote m.1).toList ++ ':' :: (gap ++ (text m.2 ++ rest)))) := by
    intro first sep rest m members hsep hrest
    rw [← List.nil_append (':' :: _), List.map_cons]
    exact .member hsep (writesText_quote m.1) blank_nil hgap hrest
  have hlater : ∀ members : List (String × Json),
      WritesMembers false (members.map fun m ↦ (m.1, text m.2))
        ((members.flatMap fun m ↦ ',' :: (lead ++ ((quote m.1).toList ++ ':' :: (gap ++ text m.2))))
          ++ (closing ++ ['\x7d'])) := by
    intro members
    induction members with
    | nil => exact .last hclosing
    | cons m members ih =>
      simp only [List.flatMap_cons, List.append_assoc, List.cons_append]
      exact hmember m (.next blank_nil hlead) ih
  cases members with
  | nil => exact .last hclosing
  | cons m members =>
    rw [List.map_cons, List.map_cons, intercalate_comma, List.flatMap_map]
    simp only [List.append_assoc, List.cons_append]
    exact hmember m (.first hlead) (hlater members)

end Joining

/-! ## What is printed -/

/-- A way to print JSON values, each on some level. -/
structure Prints (print : Nat → Json → List Char) : Prop where
  /-- The null value. -/
  null (level : Nat) : print level .null = ['n', 'u', 'l', 'l']
  /-- Truth values. -/
  bool (level : Nat) (flag : Bool) : WritesBool flag (print level (.bool flag))
  /-- Numbers. -/
  number (level : Nat) (n : UInt64) : WritesNumber n (print level (.integer n.toNat))
  /-- Texts. -/
  text (level : Nat) (s : String) : WritesText s (print level (.string s))
  /-- Arrays. -/
  array (level : Nat) (items : List Json) :
    WritesList (fun item cs ↦ cs = print (level + 1) item) items (print level (.array items))
  /-- Objects. -/
  object (level : Nat) (members : List (String × Json)) : ∃ cs,
    WritesMembers true (members.map fun m ↦ (m.1, print (level + 1) m.2)) cs ∧
      print level (.object members) = '\x7b' :: cs

theorem writesBool_toString (flag : Bool) : WritesBool flag (toString flag).toList := by
  cases flag with
  | true => exact .yes
  | false => exact .no

theorem writesNumber_toString (n : UInt64) :
    WritesNumber n (toString (n.toNat : Int)).toList := by
  have htext : toString (n.toNat : Int) = toString n.toNat := rfl
  rw [htext, Nat.toString_eq_ofList_toDigits, String.toList_ofList]
  exact .digits

theorem compactItems_eq (items : List Json) : compactItems items = items.map compact := by
  induction items with
  | nil => rfl
  | cons item items ih => rw [compactItems, ih, List.map_cons]

theorem compactMembers_eq (members : List (String × Json)) :
    compactMembers members = members.map fun m ↦ quote m.1 ++ ":" ++ compact m.2 := by
  induction members with
  | nil => rfl
  | cons m members ih => rw [compactMembers, ih, List.map_cons]

theorem prints_compact : Prints fun _ value ↦ value.compact.toList where
  null _ := rfl
  bool _ flag := by
    rw [compact]
    exact writesBool_toString flag
  number _ n := by
    rw [compact]
    exact writesNumber_toString n
  text _ s := by
    rw [compact]
    exact writesText_quote s
  array _ items := by
    rw [compact, compactItems_eq, String.toList_append, String.toList_append,
      String.toList_intercalate, List.map_map]
    exact .elements (writesElements_intercalate _ blank_nil blank_nil items)
  object _ members := by
    refine ⟨_, writesMembers_intercalate (fun value ↦ value.compact.toList) blank_nil blank_nil
      blank_nil members, ?_⟩
    have hparts : (members.map fun m ↦ quote m.1 ++ ":" ++ compact m.2).map String.toList
        = members.map fun m ↦ [] ++ ((quote m.1).toList ++ ':' :: ([] ++ m.2.compact.toList)) := by
      rw [List.map_map]
      refine List.map_congr_left fun m _ ↦ ?_
      rw [Function.comp_apply, String.toList_append, String.toList_append, List.append_assoc]
      rfl
    rw [compact, compactMembers_eq, String.toList_append, String.toList_append,
      String.toList_intercalate, hparts]
    rfl

theorem prettyItems_eq (level : Nat) (items : List Json) :
    prettyItems level items = items.map (prettyAt level) := by
  induction items with
  | nil => rfl
  | cons item items ih => rw [prettyItems, ih, List.map_cons]

theorem prettyMembers_eq (level : Nat) (members : List (String × Json)) :
    prettyMembers level members = members.map fun m ↦ quote m.1 ++ ": " ++ prettyAt level m.2 := by
  induction members with
  | nil => rfl
  | cons m members ih => rw [prettyMembers, ih, List.map_cons]

theorem blank_indent (level : Nat) : Blank (indent level).toList := by
  intro c hc
  rw [indent, String.toList_ofList] at hc
  rcases List.mem_cons.mp hc with rfl | hc
  · exact .inr (.inl rfl)
  · exact .inl (List.eq_of_mem_replicate hc)

/-- The blanks in front of a closing bracket. -/
def outdent (level : Nat) (parts : List String) : List Char :=
  if parts.isEmpty then [] else (indent level).toList

theorem blank_outdent (level : Nat) (parts : List String) : Blank (outdent level parts) := by
  rw [outdent]
  split
  · exact blank_nil
  · exact blank_indent level

theorem toList_block (level : Nat) (opening closing : String) (parts : List String) :
    (block level opening closing parts).toList = opening.toList
      ++ ([','].intercalate (parts.map fun part ↦ (indent (level + 1)).toList ++ part.toList)
        ++ (outdent level parts ++ closing.toList)) := by
  have hlines : (parts.map fun part ↦ indent (level + 1) ++ part).map String.toList
      = parts.map fun part ↦ (indent (level + 1)).toList ++ part.toList := by
    rw [List.map_map]
    exact List.map_congr_left fun part _ ↦ String.toList_append
  cases parts with
  | nil => exact String.toList_append
  | cons part parts =>
    rw [block, outdent, List.isEmpty_cons, if_neg Bool.false_ne_true, if_neg Bool.false_ne_true]
    simp only [String.toList_append, String.toList_intercalate, hlines, List.append_assoc]
    rfl

theorem prints_pretty : Prints fun level value ↦ (value.prettyAt level).toList where
  null _ := by
    rw [prettyAt]
    rfl
  bool _ flag := by
    rw [prettyAt]
    exact writesBool_toString flag
  number _ n := by
    rw [prettyAt]
    exact writesNumber_toString n
  text _ s := by
    rw [prettyAt]
    exact writesText_quote s
  array level items := by
    rw [prettyAt, prettyItems_eq, toList_block, List.map_map]
    exact .elements (writesElements_intercalate _ (blank_indent _) (blank_outdent _ _) items)
  object level members := by
    have hparts : ((members.map fun m ↦ quote m.1 ++ ": " ++ prettyAt (level + 1) m.2).map
        fun part ↦ (indent (level + 1)).toList ++ part.toList)
        = members.map fun m ↦ (indent (level + 1)).toList
          ++ ((quote m.1).toList ++ ':' :: ([' '] ++ (m.2.prettyAt (level + 1)).toList)) := by
      rw [List.map_map]
      refine List.map_congr_left fun m _ ↦ ?_
      rw [Function.comp_apply, String.toList_append, String.toList_append, List.append_assoc]
      rfl
    rw [prettyAt, prettyMembers_eq, toList_block, hparts]
    exact ⟨_, writesMembers_intercalate (fun value ↦ (value.prettyAt (level + 1)).toList)
      (blank_indent _) blank_space (blank_outdent _ _) members, rfl⟩

/-! ## Printing typed values -/

section Typed

variable {α : Type} {Writes : Writing α} {toJson : α → Json} {level : Nat}
  {print : Nat → Json → List Char}

theorem WritesElements.of_map {first : Bool} {cs : List Char} {xs : List α}
    (hprint : ∀ x, Writes x (print level (toJson x)))
    (h : WritesElements (fun item cs ↦ cs = print level item) first (xs.map toJson) cs) :
    WritesElements Writes first xs cs := by
  induction xs generalizing first cs with
  | nil =>
    obtain ⟨hws⟩ := h
    exact .last hws
  | cons x xs ih =>
    obtain @⟨-, -⟩ | @⟨_, sep, _, rest, _, _, hsep, rfl, hrest⟩ := h
    exact .element hsep (hprint x) (ih hrest)

theorem Prints.list (h : Prints print) (hprint : ∀ x, Writes x (print (level + 1) (toJson x)))
    (xs : List α) : WritesList Writes xs (print level (.array (xs.map toJson))) := by
  have harray := h.array level (xs.map toJson)
  generalize print level (.array (xs.map toJson)) = cs at harray ⊢
  obtain ⟨helements⟩ := harray
  exact .elements (helements.of_map hprint)

theorem Prints.option (h : Prints print) (hprint : ∀ x, Writes x (print level (toJson x)))
    (x : Option α) : WritesOption Writes x (print level (x.elim .null toJson)) := by
  cases x with
  | none =>
    rw [Option.elim_none, h.null]
    exact .none
  | some x => exact .some (hprint x)

/-- An object of all fields of a record is a way to write it. -/
theorem Prints.record (h : Prints print) {slots : List Slot} {members : List (String × Json)}
    (hkeeps : Keeps slots (members.map fun m ↦ (m.1, print (level + 1) m.2))) :
    WritesObject slots (print level (.object members)) := by
  obtain ⟨cs, hcs, heq⟩ := h.object level members
  rw [heq]
  refine .members hkeeps (fun m hm ↦ absurd hm List.not_mem_nil) ?_ hcs
  rw [List.append_nil]

end Typed

end BookmarkGraph.Json
