import BookmarkGraph.Command.Steps
import BookmarkGraph.Proofs.Outcome
import BookmarkGraph.Proofs.Text.Fields
import BookmarkGraph.Proofs.Text.Numeral

/-!
# What the language of steps says

A step can be written in many ways: white space stands anywhere around names, arguments and their
parts, blank parts stand between commas and bars, and a number has more than one spelling. `Writes`
relates a step to all texts that mean it. It is stated without the scanners, so that the theorem
says something about them: what is written is read, and the language reaches every step whose texts
keep clear of the delimiters.

All three levels of the language are lists of parts between delimiters, so one relation serves them
all: `Listed` puts items into parts and lets blank parts stand among them.

A text is refused exactly if one of its tokens is `Malformed`. Tokens are read and appended one
after the other, but appending never fails, `append_eq`: a query that has gone wrong remembers why,
and goes on. So reading a text comes down to reading all of its tokens, `extend_eq`, and the query
neither hides a malformed token nor makes one.
-/

namespace BookmarkGraph.StepLanguage

open Fields Numeral

/-! ## Items between delimiters -/

/-- Items, each written into a part of its own, with blank parts among them. -/
inductive Listed {α : Type} (writes : α → List Char → Prop) : List α → List (List Char) → Prop
  | nil : Listed writes [] []
  | blank {items : List α} {part : List Char} {parts : List (List Char)} : Spaces part →
    Listed writes items parts → Listed writes items (part :: parts)
  | item {x : α} {items : List α} {part : List Char} {parts : List (List Char)} : writes x part →
    Listed writes items parts → Listed writes (x :: items) (part :: parts)

/-- A text that writes items with a delimiter between them. -/
inductive WritesList {α : Type} (d : Char) (writes : α → List Char → Prop) (items : List α) :
    List Char → Prop
  | parts {parts : List (List Char)} : Listed writes items parts → (∀ part ∈ parts, d ∉ part) →
    WritesList d writes items ([d].intercalate parts)

/-- An argument that writes items with bars between them. No items need no argument. -/
def WritesArgument {α : Type} (writes : α → List Char → Prop) (items : List α) :
    Option (List Char) → Prop
  | none => items = []
  | some text => WritesList '|' writes items text

/-- An item written with white space around it. -/
def Around {α : Type} (spells : α → List Char → Prop) (x : α) (part : List Char) : Prop :=
  ∃ text, spells x text ∧ Padded text part

section Lists

variable {α β : Type} {d : Char} {writes : α → List Char → Prop} {read : List Char → β} {f : α → β}
  {items : List α} {text : List Char}

/-- Items are read back from a list if each of them is read back from a part that is not blank. -/
theorem WritesList.map_list (h : WritesList d writes items text)
    (hread : ∀ x part, writes x part → ¬Spaces part ∧ read (trim part) = f x) :
    (list d text).map read = items.map f := by
  obtain ⟨hlisted, hparts⟩ := h
  rw [list_intercalate hparts]
  clear hparts
  induction hlisted with
  | nil => rfl
  | blank hspaces _ ih =>
    rw [List.map_cons, trim_eq_nil.mpr hspaces, List.filter_cons_of_neg (by decide), ih]
  | @item x _ part _ hx _ ih =>
    obtain ⟨hspaces, hitem⟩ := hread x part hx
    have hne : (!(trim part).isEmpty) = true := by
      rwa [Bool.not_eq_true', List.isEmpty_eq_false_iff, ne_eq, trim_eq_nil]
    rw [List.map_cons, List.filter_cons, if_pos hne, List.map_cons, List.map_cons, hitem, ih]

theorem exists_listed {P : List Char → Prop} (h : ∀ x ∈ items, ∃ part, writes x part ∧ P part) :
    ∃ parts, Listed writes items parts ∧ ∀ part ∈ parts, P part := by
  induction items with
  | nil => exact ⟨[], .nil, fun _ hpart ↦ absurd hpart List.not_mem_nil⟩
  | cons x items ih =>
    obtain ⟨part, hx, hpart⟩ := h x List.mem_cons_self
    obtain ⟨parts, hlisted, hparts⟩ := ih fun y hy ↦ h y (List.mem_cons_of_mem x hy)
    exact ⟨part :: parts, .item hx hlisted, List.forall_mem_cons.mpr ⟨hpart, hparts⟩⟩

theorem not_mem_intercalate {c : Char} {parts : List (List Char)} (hc : c ≠ d)
    (h : ∀ part ∈ parts, c ∉ part) : c ∉ [d].intercalate parts := by
  match parts with
  | [] => exact List.not_mem_nil
  | [part] =>
    rw [List.intercalate_singleton]
    exact h part List.mem_cons_self
  | part :: part' :: parts =>
    obtain ⟨hpart, hparts⟩ := List.forall_mem_cons.mp h
    rw [List.intercalate_cons_cons, List.append_assoc, List.mem_append, List.singleton_append,
      List.mem_cons]
    rintro (hmem | rfl | hmem)
    · exact hpart hmem
    · exact hc rfl
    · exact not_mem_intercalate hc hparts hmem

/-- Items that can be written one by one without the delimiter can be written as a list. -/
theorem exists_writesList {c : Char} (hc : c ≠ d)
    (h : ∀ x ∈ items, ∃ part, writes x part ∧ d ∉ part ∧ c ∉ part) :
    ∃ text, WritesList d writes items text ∧ c ∉ text := by
  obtain ⟨parts, hlisted, hparts⟩ := exists_listed h
  exact ⟨_, .parts hlisted fun part hpart ↦ (hparts part hpart).1,
    not_mem_intercalate hc fun part hpart ↦ (hparts part hpart).2⟩

end Lists

/-! ## Names and arguments -/

/-- A token cut into a name and an argument at its first colon, if it has one. White space around
the name is cut off, too. -/
inductive Cut : List Char → List Char → Option (List Char) → Prop
  | bare {name token : List Char} : ':' ∉ token → Trimmed name → Padded name token →
    Cut token name none
  | argued {name front back : List Char} : ':' ∉ front → Trimmed name → Padded name front →
    Cut (front ++ ':' :: back) name (some back)

section Cuts

variable {token name : List Char} {argument : Option (List Char)}

/-- A token is read as its name and its argument ask for. -/
theorem Cut.step_trim (h : Cut token name argument) :
    step (trim token) = named (trim token) (String.ofList name) (argument.map trim) := by
  rcases h with ⟨hcolon, hname, hpadded⟩ | ⟨hcolon, hname, hpadded⟩
  · rw [step, splitOnce_trim_none rfl hcolon, trimmed_trim _ |>.trim_eq_self,
      hpadded.trim_eq_of_trimmed hname]
    rfl
  · obtain ⟨front', back', hcut, hfront', hback'⟩ := splitOnce_trim (by rfl) hcolon _
    rw [step, hcut]
    change named _ (String.ofList (trim front')) (some (trim back')) = _
    rw [hfront', hback', hpadded.trim_eq_of_trimmed hname]
    rfl

theorem Cut.not_spaces (h : Cut token name argument) (hname : name ≠ []) : ¬Spaces token := by
  intro hspaces
  rcases h with ⟨-, htrimmed, hpadded⟩ | -
  · rw [← hpadded.trim_eq_of_trimmed htrimmed, ne_eq, trim_eq_nil] at hname
    exact hname hspaces
  · exact not_mem_of_spaces (by rfl) hspaces (List.mem_append_right _ List.mem_cons_self)

theorem exists_cut (token : List Char) : ∃ name argument, Cut token name argument := by
  cases hcut : splitOnce ':' token with
  | none =>
    exact ⟨_, _, .bare (splitOnce_eq_none.mp hcut) (trimmed_trim token) (padded_trim token)⟩
  | some cut =>
    obtain ⟨hfront, rfl⟩ := eq_append_of_splitOnce hcut
    exact ⟨_, _, .argued hfront (trimmed_trim cut.1) (padded_trim cut.1)⟩

end Cuts

/-! ## Spellings -/

/-- A label is spelled as it is. -/
inductive SpellsLabel : String → List Char → Prop
  | label {label : String} : label.toList ≠ [] → Trimmed label.toList →
    SpellsLabel label label.toList

/-- A number is spelled by any digits that make it. A name is spelled as it is, unless it is spelled
like a number. -/
inductive SpellsId : ElementId → List Char → Prop
  | number {n : UInt64} {digits : List Char} : Spells digits n.toNat → SpellsId (.number n) digits
  | name {name : String} : name.toList ≠ [] → Trimmed name.toList →
    (∀ n < UInt64.size, ¬Spells name.toList n) → SpellsId (.name name) name.toList

/-- An integer is spelled by digits with a sign at most, a flag by its word. A text is spelled as it
is, unless it is spelled like one of them. -/
inductive SpellsValue : Value → List Char → Prop
  | integer {i : Int64} {digits : List Char} : SpellsSigned digits i →
    SpellsValue (.integer i) digits
  | bool (flag : Bool) : SpellsValue (.bool flag) (toString flag).toList
  | text {text : String} : Trimmed text.toList → (∀ i, ¬SpellsSigned text.toList i) →
    text ≠ "true" → text ≠ "false" → SpellsValue (.text text) text.toList

section Spellings

variable {digits text part : List Char}

theorem isSpace_eq_false_of_isDigit {c : Char} (h : c.isDigit = true) : isSpace c = false := by
  have hzero : '0'.toNat = 0x30 := rfl
  have hnine : '9'.toNat = 0x39 := rfl
  rw [Char.isDigit_iff_toNat] at h
  simp only [isSpace, Bool.or_eq_false_iff, Bool.and_eq_false_iff, decide_eq_false_iff_not]
  omega

theorem trimmed_of_spells {n : Nat} (h : Spells digits n) : Trimmed digits :=
  trimmed_of_forall fun c hc ↦ isSpace_eq_false_of_isDigit (h.digits c hc)

theorem mem_of_spellsUnsigned {c : Char} {u : UInt64} (h : SpellsUnsigned digits u)
    (hc : c ∈ digits) : c.isDigit = true ∨ c = '+' := by
  rcases h with ⟨h, -⟩ | ⟨h, -⟩
  · exact .inl (h.digits c hc)
  · exact (List.mem_cons.mp hc).symm.imp_left (h.digits c)

theorem mem_of_spellsSigned {c : Char} {i : Int64} (h : SpellsSigned digits i)
    (hc : c ∈ digits) : c.isDigit = true ∨ c = '+' ∨ c = '-' := by
  rcases h with ⟨h, -⟩ | ⟨h, -⟩ | ⟨h, -⟩
  · exact .inl (h.digits c hc)
  · exact (List.mem_cons.mp hc).symm.imp (h.digits c) .inl
  · exact (List.mem_cons.mp hc).symm.imp (h.digits c) .inr

theorem trimmed_of_spellsUnsigned {u : UInt64} (h : SpellsUnsigned digits u) : Trimmed digits := by
  refine trimmed_of_forall fun c hc ↦ ?_
  rcases mem_of_spellsUnsigned h hc with hdigit | rfl
  · exact isSpace_eq_false_of_isDigit hdigit
  · rfl

theorem trimmed_of_spellsSigned {i : Int64} (h : SpellsSigned digits i) : Trimmed digits := by
  refine trimmed_of_forall fun c hc ↦ ?_
  rcases mem_of_spellsSigned h hc with hdigit | rfl | rfl
  · exact isSpace_eq_false_of_isDigit hdigit
  · rfl
  · rfl

theorem trimmed_of_spellsValue {value : Value} (h : SpellsValue value text) : Trimmed text := by
  rcases h with h | flag | ⟨htext, -⟩
  · exact trimmed_of_spellsSigned h
  · cases flag <;> decide
  · exact htext

theorem read_label {label : String} (h : Around SpellsLabel label part) :
    ¬Spaces part ∧ String.ofList (trim part) = label := by
  obtain ⟨-, ⟨hne, htrimmed⟩, hpadded⟩ := h
  refine ⟨hpadded.not_spaces htrimmed hne, ?_⟩
  rw [hpadded.trim_eq_of_trimmed htrimmed, String.ofList_toList]

theorem id_eq_number {n : UInt64} (h : Spells digits n.toNat) : id digits = .number n := by
  rw [id, natural?_eq_some.mpr h]
  exact (if_pos n.toNat_lt).trans (congrArg ElementId.number n.ofNat_toNat)

theorem id_eq_name (h : ∀ n < UInt64.size, ¬Spells text n) :
    id text = .name (String.ofList text) := by
  rw [id]
  split
  · rename_i n hn
    exact if_neg fun hsize ↦ h n hsize (natural?_eq_some.mp hn)
  · rfl

theorem read_id {x : ElementId} (h : Around SpellsId x part) :
    ¬Spaces part ∧ id (trim part) = x := by
  obtain ⟨text, ⟨hn⟩ | ⟨hne, htrimmed, hname⟩, hpadded⟩ := h
  · rw [hpadded.trim_eq_of_trimmed (trimmed_of_spells hn)]
    exact ⟨hpadded.not_spaces (trimmed_of_spells hn) hn.ne_nil, id_eq_number hn⟩
  · rw [hpadded.trim_eq_of_trimmed htrimmed, id_eq_name hname, String.ofList_toList]
    exact ⟨hpadded.not_spaces htrimmed hne, rfl⟩

theorem read_value {x : Value} (h : SpellsValue x text) : value text = x := by
  rcases h with h | flag | ⟨-, hsigned, htrue, hfalse⟩
  · rw [value, signed64?_eq_some.mpr h]
  · cases flag <;> decide
  · rename_i text
    have hnone : signed64? (String.ofList text.toList) = none := by
      rw [Option.eq_none_iff_forall_ne_some]
      exact fun i hi ↦ hsigned i (signed64?_eq_some.mp hi)
    rw [value, hnone, String.ofList_toList]
    exact (if_neg htrue).trans (if_neg hfalse)

end Spellings

/-! ## Steps -/

def labelled : List (String × (List String → Step)) :=
  [("out", .out), ("in", .into), ("both", .both), ("out_e", .outEdges), ("in_e", .inEdges),
    ("both_e", .bothEdges), ("has_label", .hasLabel)]

def plain : List (String × Step) :=
  [("in_v", .targets), ("out_v", .sources), ("id", .id), ("properties", .properties false),
    ("to_dict", .properties false), ("internal_properties", .properties true),
    ("distinct", .distinct)]

def names : List String :=
  labelled.map Prod.fst ++ plain.map Prod.fst ++ ["limit", "exclude", "has"]

/-- The tokens that write a step. An argument that is not asked for is allowed. -/
inductive Writes : Step → List Char → Prop
  | labelled {name : String} {make : List String → Step} {token : List Char}
    {argument : Option (List Char)} {labels : List String} : (name, make) ∈ labelled →
    Cut token name.toList argument → WritesArgument (Around SpellsLabel) labels argument →
    Writes (make labels) token
  | plain {name : String} {step : Step} {token : List Char} {argument : Option (List Char)} :
    (name, step) ∈ plain → Cut token name.toList argument → Writes step token
  | limit {token digits argument : List Char} {n : UInt64} :
    Cut token "limit".toList (some argument) → SpellsUnsigned digits n →
    Padded digits argument → Writes (.limit n.toNat) token
  | exclude {token : List Char} {argument : Option (List Char)} {ids : List ElementId} :
    Cut token "exclude".toList argument → WritesArgument (Around SpellsId) ids argument →
    Writes (.excludeIds ids) token
  | has {token front back : List Char} {key : String} {value : Value} :
    Cut token "has".toList (some (front ++ '=' :: back)) → '=' ∉ front → Trimmed key.toList →
    Padded key.toList front → Around SpellsValue value back → Writes (.has key value) token

def WritesSteps (steps : List Step) (text : String) : Prop :=
  WritesList ',' Writes steps text.toList

/-- The tokens that write no step: the name is unknown, a limit has no number, or a condition has no
equals sign. -/
inductive Malformed (token : List Char) : Prop
  | name {name : List Char} {argument : Option (List Char)} : Cut token name argument →
    String.ofList name ∉ names → Malformed token
  | limit {argument : Option (List Char)} : Cut token "limit".toList argument →
    (∀ text ∈ argument, ∀ digits n, Padded digits text → ¬SpellsUnsigned digits n) → Malformed token
  | has {argument : Option (List Char)} : Cut token "has".toList argument →
    (∀ text ∈ argument, '=' ∉ text) → Malformed token

section Steps

variable {name : String} {token text front back : List Char} {argument : Option (List Char)}

theorem named_labelled {make : List String → Step} (h : (name, make) ∈ labelled) :
    named token name argument = .ok (make (labels argument)) := by
  simp only [labelled, List.mem_cons, List.not_mem_nil, or_false, Prod.mk.injEq] at h
  rcases h with ⟨rfl, rfl⟩ | ⟨rfl, rfl⟩ | ⟨rfl, rfl⟩ | ⟨rfl, rfl⟩ | ⟨rfl, rfl⟩ | ⟨rfl, rfl⟩ |
    ⟨rfl, rfl⟩ <;> rfl

theorem named_plain {step : Step} (h : (name, step) ∈ plain) :
    named token name argument = .ok step := by
  simp only [plain, List.mem_cons, List.not_mem_nil, or_false, Prod.mk.injEq] at h
  rcases h with ⟨rfl, rfl⟩ | ⟨rfl, rfl⟩ | ⟨rfl, rfl⟩ | ⟨rfl, rfl⟩ | ⟨rfl, rfl⟩ | ⟨rfl, rfl⟩ |
    ⟨rfl, rfl⟩ <;> rfl

theorem named_unknown (h : name ∉ names) :
    named token name argument = .error (.invalidArgument (.unknownStep name)) := by
  unfold named
  split
  case h_18 => rfl
  all_goals exact absurd (by decide) h

theorem fields_trim : fields (argument.map trim) = fields argument := by
  cases argument with
  | none => rfl
  | some text => exact list_trim (by rfl) text

theorem map_fields {α : Type} {writes : α → List Char → Prop} {read : List Char → α}
    {items : List α} (h : WritesArgument writes items argument)
    (hread : ∀ x part, writes x part → ¬Spaces part ∧ read (trim part) = x) :
    (fields argument).map read = items := by
  cases argument with
  | none => exact h ▸ rfl
  | some text => exact (h.map_list (f := fun x ↦ x) hread).trans (List.map_id' items)

theorem named_limit {digits : List Char} {n : UInt64} (h : SpellsUnsigned digits n)
    (hpadded : Padded digits text) :
    named token "limit" (some (trim text)) = .ok (.limit n.toNat) := by
  change limit token (some (trim text)) = _
  rw [limit, Option.bind_some, hpadded.trim_eq_of_trimmed (trimmed_of_spellsUnsigned h),
    unsigned64?_eq_some.mpr h]

theorem named_has (h : '=' ∉ front) : named token "has" (some (trim (front ++ '=' :: back)))
    = .ok (.has (String.ofList (trim front)) (value (trim back))) := by
  obtain ⟨front', back', hcut, hfront, hback⟩ := splitOnce_trim (by rfl) h back
  change condition token (some (trim (front ++ '=' :: back))) = _
  rw [condition, Option.bind_some, hcut, ← hfront, ← hback]

theorem read_step {s : Step} (h : Writes s token) : ¬Spaces token ∧ step (trim token) = .ok s := by
  have hnames : ∀ name ∈ names, name.toList ≠ [] := by decide
  cases h with
  | labelled hname hcut hlabels =>
    refine ⟨hcut.not_spaces (hnames _ ?_), ?_⟩
    · exact List.mem_append_left _ (List.mem_append_left _ (List.mem_map_of_mem hname))
    · rw [hcut.step_trim, String.ofList_toList, named_labelled hname, labels, fields_trim,
        map_fields hlabels fun _ _ ↦ read_label]
  | plain hname hcut =>
    refine ⟨hcut.not_spaces (hnames _ ?_), ?_⟩
    · exact List.mem_append_left _ (List.mem_append_right _ (List.mem_map_of_mem hname))
    · rw [hcut.step_trim, String.ofList_toList, named_plain hname]
  | limit hcut hdigits hpadded =>
    refine ⟨hcut.not_spaces (by decide), ?_⟩
    rw [hcut.step_trim, String.ofList_toList, Option.map_some, named_limit hdigits hpadded]
  | exclude hcut hids =>
    refine ⟨hcut.not_spaces (by decide), ?_⟩
    rw [hcut.step_trim, String.ofList_toList]
    change Except.ok (Step.excludeIds ((fields _).map id)) = _
    rw [fields_trim, map_fields hids fun _ _ ↦ read_id]
  | has hcut hfront hkey hpadded hvalue =>
    obtain ⟨text, hvalue, haround⟩ := hvalue
    refine ⟨hcut.not_spaces (by decide), ?_⟩
    rw [hcut.step_trim, String.ofList_toList, Option.map_some, named_has hfront,
      hpadded.trim_eq_of_trimmed hkey, haround.trim_eq_of_trimmed (trimmed_of_spellsValue hvalue),
      read_value hvalue, String.ofList_toList]

theorem mem_names (h : name ∈ names) :
    (∃ make, (name, make) ∈ labelled) ∨ (∃ step, (name, step) ∈ plain) ∨
      name = "limit" ∨ name = "exclude" ∨ name = "has" := by
  simp only [names, List.mem_append, List.mem_map, Prod.exists, exists_and_right, exists_eq_right,
    List.mem_cons, List.not_mem_nil, or_false] at h
  rwa [or_assoc] at h

theorem step_eq_ok_or_malformed (token : List Char) :
    (∃ s, step (trim token) = .ok s) ∨ Malformed token := by
  obtain ⟨name, argument, hcut⟩ := exists_cut token
  by_cases hname : String.ofList name ∈ names
  · rw [hcut.step_trim]
    rcases mem_names hname with ⟨make, hmake⟩ | ⟨s, hs⟩ | hlimit | hexclude | hhas
    · exact .inl ⟨_, named_labelled hmake⟩
    · exact .inl ⟨_, named_plain hs⟩
    · rw [← String.toList_ofList (l := name), hlimit] at hcut
      rw [hlimit]
      by_cases hdigits : ∃ text ∈ argument, ∃ digits n, Padded digits text ∧ SpellsUnsigned digits n
      · obtain ⟨text, rfl, digits, n, hpadded, hdigits⟩ := hdigits
        exact .inl ⟨_, named_limit hdigits hpadded⟩
      · refine .inr (.limit hcut fun text htext digits n hpadded hspells ↦ ?_)
        exact hdigits ⟨text, htext, digits, n, hpadded, hspells⟩
    · rw [hexclude]
      exact .inl ⟨_, rfl⟩
    · rw [← String.toList_ofList (l := name), hhas] at hcut
      rw [hhas]
      by_cases hsign : ∃ text ∈ argument, '=' ∈ text
      · obtain ⟨text, rfl, hsign⟩ := hsign
        obtain ⟨front, back, rfl, hfront⟩ := List.eq_append_cons_of_mem hsign
        exact .inl ⟨_, named_has hfront⟩
      · exact .inr (.has hcut fun text htext hsign' ↦ hsign ⟨text, htext, hsign'⟩)
  · exact .inr (.name hcut hname)

theorem named_limit_fault
    (h : ∀ text ∈ argument, ∀ digits n, Padded digits text → ¬SpellsUnsigned digits n) :
    named token "limit" (argument.map trim)
      = .error (.invalidArgument (.limitNumberMissing (String.ofList token))) := by
  have hnone : ((argument.map trim).bind fun text ↦ unsigned64? (String.ofList text)) = none := by
    cases argument with
    | none => rfl
    | some text =>
      rw [Option.map_some, Option.bind_some, Option.eq_none_iff_forall_ne_some]
      exact fun n hn ↦ h text rfl (trim text) n (padded_trim text) (unsigned64?_eq_some.mp hn)
  change limit token (argument.map trim) = _
  rw [limit, hnone]

theorem named_has_fault (h : ∀ text ∈ argument, '=' ∉ text) :
    named token "has" (argument.map trim)
      = .error (.invalidArgument (.conditionMissing (String.ofList token))) := by
  have hnone : (argument.map trim).bind (splitOnce '=') = none := by
    cases argument with
    | none => rfl
    | some text => exact splitOnce_trim_none (by rfl) (h text rfl)
  change condition token (argument.map trim) = _
  rw [condition, hnone]

theorem Malformed.step_eq_error (h : Malformed token) :
    ∃ fault, step (trim token) = .error (.invalidArgument fault) := by
  rcases h with ⟨hcut, hname⟩ | ⟨hcut, hdigits⟩ | ⟨hcut, hsign⟩
  · exact ⟨_, hcut.step_trim.trans (named_unknown hname)⟩
  · have hstep := hcut.step_trim
    rw [String.ofList_toList, named_limit_fault hdigits] at hstep
    exact ⟨_, hstep⟩
  · have hstep := hcut.step_trim
    rw [String.ofList_toList, named_has_fault hsign] at hstep
    exact ⟨_, hstep⟩

end Steps

/-! ## What can be written -/

/-- A text without white space at its ends that keeps clear of delimiters. -/
structure Clear (delimiters : List Char) (text : String) : Prop where
  /-- There is no white space at the ends. -/
  trimmed : Trimmed text.toList
  /-- There is no delimiter. -/
  clear : ∀ d ∈ delimiters, d ∉ text.toList

inductive ExpressibleId : ElementId → Prop
  | number (n : UInt64) : ExpressibleId (.number n)
  | name {name : String} : name ≠ "" → Clear [',', '|'] name →
    (∀ n < UInt64.size, ¬Spells name.toList n) → ExpressibleId (.name name)

inductive ExpressibleValue : Value → Prop
  | integer (i : Int64) : ExpressibleValue (.integer i)
  | bool (flag : Bool) : ExpressibleValue (.bool flag)
  | text {text : String} : Clear [','] text → (∀ i, ¬SpellsSigned text.toList i) →
    text ≠ "true" → text ≠ "false" → ExpressibleValue (.text text)

/-- Steps that the language can mention. -/
inductive Expressible : Step → Prop
  | labelled {name : String} {make : List String → Step} {labels : List String} :
    (name, make) ∈ labelled → (∀ label ∈ labels, label ≠ "" ∧ Clear [',', '|'] label) →
    Expressible (make labels)
  | plain {name : String} {step : Step} : (name, step) ∈ plain → Expressible step
  | limit {n : Nat} : n < UInt64.size → Expressible (.limit n)
  | exclude {ids : List ElementId} : (∀ id ∈ ids, ExpressibleId id) → Expressible (.excludeIds ids)
  | has {key : String} {value : Value} : Clear [',', '='] key → ExpressibleValue value →
    Expressible (.has key value)

section Expressible

variable {name : String} {back : List Char} {s : Step} {d : Char}

theorem not_mem_names {c : Char} (hname : name ∈ names) (hc : c = ':' ∨ c = ',') :
    c ∉ name.toList := by
  have hnames : ∀ name ∈ names, ':' ∉ name.toList ∧ ',' ∉ name.toList := by decide
  rcases hc with rfl | rfl
  · exact (hnames name hname).1
  · exact (hnames name hname).2

theorem trimmed_names (hname : name ∈ names) : Trimmed name.toList := by
  have hnames : ∀ name ∈ names, Trimmed name.toList := by decide
  exact hnames name hname

theorem cut_argued (hname : name ∈ names) (back : List Char) :
    Cut (name.toList ++ ':' :: back) name.toList (some back) :=
  .argued (not_mem_names hname (.inl rfl)) (trimmed_names hname) (.refl _)

theorem cut_bare (hname : name ∈ names) : Cut name.toList name.toList none :=
  .bare (not_mem_names hname (.inl rfl)) (trimmed_names hname) (.refl _)

theorem not_mem_argued (hname : name ∈ names) (hback : ',' ∉ back) :
    ',' ∉ name.toList ++ ':' :: back := by
  rw [List.mem_append, List.mem_cons]
  rintro (hmem | hmem | hmem)
  · exact not_mem_names hname (.inr rfl) hmem
  · exact absurd hmem (by decide)
  · exact hback hmem

theorem exists_around_label {label : String} (hne : label ≠ "") (h : Clear [',', '|'] label) :
    ∃ part, Around SpellsLabel label part ∧ '|' ∉ part ∧ ',' ∉ part :=
  ⟨label.toList, ⟨_, .label (mt String.toList_eq_nil_iff.mp hne) h.trimmed, .refl _⟩,
    h.clear '|' (by decide), h.clear ',' (by decide)⟩

theorem not_mem_toDigits (hd : d.isDigit = false) (n : Nat) : d ∉ Nat.toDigits 10 n := fun hmem ↦
  Bool.false_ne_true (hd.symm.trans ((spells_toDigits n).digits d hmem))

theorem exists_around_id {x : ElementId} (h : ExpressibleId x) :
    ∃ part, Around SpellsId x part ∧ '|' ∉ part ∧ ',' ∉ part := by
  rcases h with n | ⟨hne, hclear, hname⟩
  · exact ⟨_, ⟨_, .number (spells_toDigits n.toNat), .refl _⟩, not_mem_toDigits rfl _,
      not_mem_toDigits rfl _⟩
  · exact ⟨_, ⟨_, .name (mt String.toList_eq_nil_iff.mp hne) hclear.trimmed hname, .refl _⟩,
      hclear.clear '|' (by decide), hclear.clear ',' (by decide)⟩

theorem exists_spellsValue {x : Value} (h : ExpressibleValue x) :
    ∃ text, SpellsValue x text ∧ ',' ∉ text := by
  rcases h with i | flag | ⟨hclear, hsigned, htrue, hfalse⟩
  · refine ⟨_, .integer (spellsSigned_toString i), fun hmem ↦ ?_⟩
    exact absurd (mem_of_spellsSigned (spellsSigned_toString i) hmem) (by decide)
  · exact ⟨_, .bool flag, by cases flag <;> decide⟩
  · exact ⟨_, .text hclear.trimmed hsigned htrue hfalse, hclear.clear ',' (by decide)⟩

theorem exists_writes (h : Expressible s) : ∃ token, Writes s token ∧ ',' ∉ token := by
  cases h with
  | @labelled name _ labels hname hlabels =>
    have hnames : name ∈ names :=
      List.mem_append_left _ (List.mem_append_left _ (List.mem_map_of_mem hname))
    obtain ⟨text, htext, hcomma⟩ := exists_writesList (d := '|') (c := ',') (by decide)
      fun label hlabel ↦ exists_around_label (hlabels label hlabel).1 (hlabels label hlabel).2
    exact ⟨_, .labelled hname (cut_argued hnames text) htext, not_mem_argued hnames hcomma⟩
  | @plain name s hname =>
    have hnames : name ∈ names :=
      List.mem_append_left _ (List.mem_append_right _ (List.mem_map_of_mem hname))
    exact ⟨_, .plain hname (cut_bare hnames), not_mem_names hnames (.inr rfl)⟩
  | @limit n hn =>
    have hnames : "limit" ∈ names := by decide
    have hwrites := Writes.limit (cut_argued hnames _) (.bare (spells_toDigits n) hn) (.refl _)
    rw [UInt64.toNat_ofNat_of_lt' hn] at hwrites
    exact ⟨_, hwrites, not_mem_argued hnames (not_mem_toDigits rfl n)⟩
  | exclude hids =>
    have hnames : "exclude" ∈ names := by decide
    obtain ⟨text, htext, hcomma⟩ := exists_writesList (d := '|') (c := ',') (by decide)
      fun id hid ↦ exists_around_id (hids id hid)
    exact ⟨_, .exclude (cut_argued hnames text) htext, not_mem_argued hnames hcomma⟩
  | @has key value hkey hvalue =>
    have hnames : "has" ∈ names := by decide
    obtain ⟨text, htext, hcomma⟩ := exists_spellsValue hvalue
    refine ⟨_, .has (cut_argued hnames (key.toList ++ '=' :: text)) (hkey.clear '=' (by decide))
      hkey.trimmed (.refl _) ⟨text, htext, .refl _⟩, not_mem_argued hnames ?_⟩
    rw [List.mem_append, List.mem_cons]
    rintro (hmem | hmem | hmem)
    · exact hkey.clear ',' (by decide) hmem
    · exact absurd hmem (by decide)
    · exact hcomma hmem

theorem exists_writesSteps {steps : List Step} (h : ∀ s ∈ steps, Expressible s) :
    ∃ text, WritesSteps steps text := by
  obtain ⟨parts, hlisted, hparts⟩ := exists_listed fun s hs ↦ exists_writes (h s hs)
  refine ⟨String.ofList ([','].intercalate parts), ?_⟩
  rw [WritesSteps, String.toList_ofList]
  exact .parts hlisted hparts

end Expressible

/-! ## Whole texts -/

section Texts

variable {text : String}

/-- The steps of a text, up to the first that is malformed. -/
def steps (text : String) : Except GraphError (List Step) :=
  (list ',' text.toList).mapM step

theorem steps_of_writesSteps {ss : List Step} (h : WritesSteps ss text) : steps text = .ok ss :=
  mapM_eq_ok_of_map (h.map_list fun _ _ ↦ read_step)

theorem exists_steps_eq_ok
    (h : ∀ token ∈ text.toList.splitOn ',', ¬Spaces token → ¬Malformed token) :
    ∃ ss, steps text = .ok ss := by
  refine exists_mapM_eq_ok fun field hfield ↦ ?_
  obtain ⟨token, htoken, hspaces, rfl⟩ := mem_list.mp hfield
  exact (step_eq_ok_or_malformed token).resolve_right (h token htoken hspaces)

/-- A malformed token behind others is not hidden by them: they are read, or malformed, too. -/
theorem exists_steps_eq_error {token : List Char} (htoken : token ∈ text.toList.splitOn ',')
    (hspaces : ¬Spaces token) (h : Malformed token) :
    ∃ fault, steps text = .error (.invalidArgument fault) := by
  have hyields : Yields (fun e ↦ ∃ fault, e = .invalidArgument fault)
      (fun _ ↦ ∀ field ∈ list ',' text.toList, ∃ s, step field = .ok s) (steps text) := by
    refine yields_mapM fun field hfield ↦ ?_
    obtain ⟨token, -, -, rfl⟩ := mem_list.mp hfield
    rcases step_eq_ok_or_malformed token with ⟨s, hs⟩ | hmalformed
    · rw [hs]
      exact ⟨s, rfl⟩
    · obtain ⟨fault, hfault⟩ := hmalformed.step_eq_error
      rw [hfault]
      exact ⟨fault, rfl⟩
  cases hsteps : steps text with
  | error e =>
    rw [hsteps] at hyields
    obtain ⟨fault, rfl⟩ := hyields
    exact ⟨fault, rfl⟩
  | ok ss =>
    rw [hsteps] at hyields
    obtain ⟨s, hs⟩ := hyields _ (mem_list.mpr ⟨token, htoken, hspaces, rfl⟩)
    obtain ⟨fault, hfault⟩ := h.step_eq_error
    rw [hs] at hfault
    cases hfault

/-- Only reading can fail. -/
theorem append_eq (q : Query) (token : List Char) :
    append q token = (step token).map fun s ↦ q.push s := by
  rw [append]
  cases step token <;> rfl

/-- What comes of the tokens of a text comes of the text, whatever the query is. -/
theorem extend_eq (q : Query) (text : String) :
    extend q text = (steps text).map fun ss ↦ ss.foldl (fun q s ↦ q.push s) q := by
  rw [extend, steps]
  -- the rest of the tokens meets the query that the first one leaves
  induction list ',' text.toList generalizing q with
  | nil => rfl
  | cons token tokens ih =>
    rw [List.foldlM_cons, List.mapM_cons, append_eq]
    cases step token with
    | error e => rfl
    | ok s =>
      change tokens.foldlM append (q.push s) = _
      rw [ih]
      cases tokens.mapM step <;> rfl

end Texts

/-- **The language of steps expresses the builder.** Steps that keep clear of the delimiters can be
written, and whatever writes steps appends them to a query as the calls of the builder do. Whatever
the query is, a text is refused exactly if one of its tokens that are not blank is malformed, and
otherwise it appends some steps. -/
theorem extend_eq_builder (q : Query) :
    (∀ ss, (∀ s ∈ ss, Expressible s) → ∃ text, WritesSteps ss text) ∧
    (∀ ss text, WritesSteps ss text → extend q text = .ok (ss.foldl (fun q s ↦ q.push s) q)) ∧
    ∀ text, ((∃ fault, extend q text = .error (.invalidArgument fault)) ↔
        ∃ token ∈ text.toList.splitOn ',', ¬Spaces token ∧ Malformed token) ∧
      ((∀ token ∈ text.toList.splitOn ',', ¬Spaces token → ¬Malformed token) →
        ∃ ss : List Step, extend q text = .ok (ss.foldl (fun q s ↦ q.push s) q)) := by
  have hread : ∀ text, (∀ token ∈ text.toList.splitOn ',', ¬Spaces token → ¬Malformed token) →
      ∃ ss : List Step, extend q text = .ok (ss.foldl (fun q s ↦ q.push s) q) := by
    intro text h
    obtain ⟨ss, hss⟩ := exists_steps_eq_ok h
    exact ⟨ss, by rw [extend_eq, hss]; rfl⟩
  refine ⟨fun ss ↦ exists_writesSteps, fun ss text h ↦ ?_, fun text ↦ ⟨⟨?_, ?_⟩, hread text⟩⟩
  · rw [extend_eq, steps_of_writesSteps h]
    rfl
  · rintro ⟨fault, hfault⟩
    by_contra hnone
    obtain ⟨ss, hss⟩ := hread text fun token htoken hspaces hmalformed ↦
      hnone ⟨token, htoken, hspaces, hmalformed⟩
    rw [hss] at hfault
    cases hfault
  · rintro ⟨token, htoken, hspaces, hmalformed⟩
    obtain ⟨fault, hfault⟩ := exists_steps_eq_error htoken hspaces hmalformed
    exact ⟨fault, by rw [extend_eq, hfault]; rfl⟩

/-- White space, a blank token and a blank label, numbers with signs; and behind a step that is
well-formed a limit whose number does not fit into 64 bits. -/
theorem extend_eq_builder_spaced :
    extend (.build .empty [.vertices]) " out : follows | ,, limit:+05 , has:age = -3" = .ok
      (.build .empty [.vertices, .step (.out ["follows"]), .step (.limit 5),
        .step (.has "age" (.integer (-3)))]) ∧
    ∃ fault, extend (.build .empty [.vertices]) "out,limit:18446744073709551616"
      = .error (.invalidArgument fault) := by
  obtain ⟨-, hread, hrefused⟩ := extend_eq_builder (.build .empty [.vertices])
  constructor
  · have hlabel : Around SpellsLabel "follows" " follows ".toList :=
      ⟨_, .label (by decide) (trimmed_trim " follows ".toList), padded_trim " follows ".toList⟩
    have hlabels : Listed (Around SpellsLabel) ["follows"] [" follows ".toList, " ".toList] :=
      .item hlabel (.blank (by decide) .nil)
    have hfollows : WritesArgument (Around SpellsLabel) ["follows"] (some " follows | ".toList) :=
      .parts hlabels (by decide)
    have hout : Writes (.out ["follows"]) " out : follows | ".toList :=
      .labelled List.mem_cons_self (.argued (show ':' ∉ " out ".toList by decide)
        (trimmed_names (by decide)) (padded_trim " out ".toList)) hfollows
    have hlimit : Writes (.limit 5) " limit:+05 ".toList :=
      .limit (n := 5) (.argued (show ':' ∉ " limit".toList by decide) (trimmed_names (by decide))
        (padded_trim " limit".toList)) (.plus (n := 5) (natural?_eq_some.mp rfl) (by decide))
        (padded_trim "+05 ".toList)
    have hcut : Cut " has:age = -3".toList "has".toList
        (some ("age ".toList ++ '=' :: " -3".toList)) :=
      .argued (show ':' ∉ " has".toList by decide) (trimmed_names (by decide))
        (padded_trim " has".toList)
    have hhas : Writes (.has "age" (.integer (-3))) " has:age = -3".toList :=
      .has hcut (by decide) (trimmed_trim "age ".toList) (padded_trim "age ".toList)
        ⟨_, .integer (.minus (n := 3) (natural?_eq_some.mp rfl) (by decide)),
          padded_trim " -3".toList⟩
    have hsteps : Listed Writes [.out ["follows"], .limit 5, .has "age" (.integer (-3))]
        [" out : follows | ".toList, [], " limit:+05 ".toList, " has:age = -3".toList] :=
      .item hout (.blank (by decide) (.item hlimit (.item hhas .nil)))
    exact hread [.out ["follows"], .limit 5, .has "age" (.integer (-3))] _
      (.parts hsteps (by decide))
  · have htoken : Malformed "limit:18446744073709551616".toList := by
      refine .limit (cut_argued (show "limit" ∈ names by decide) "18446744073709551616".toList) ?_
      rintro _ ⟨⟩ digits n hpadded hspells
      rw [← hpadded.trim_eq_of_trimmed (trimmed_of_spellsUnsigned hspells),
        ← unsigned64?_eq_some] at hspells
      have hnone : unsigned64? (String.ofList (trim "18446744073709551616".toList)) = none := by
        decide
      rw [hnone] at hspells
      cases hspells
    exact (hrefused _).1.mpr ⟨_, by decide, by decide, htoken⟩

end BookmarkGraph.StepLanguage
