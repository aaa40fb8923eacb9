import BookmarkGraph.Json.Element
import BookmarkGraph.Proofs.Json.Reading
import BookmarkGraph.Proofs.Outcome

/-!
# Ids and property values survive JSON

Ids and property values are written without a mark of their kind, so the kind has to be found in
the shape. Reading goes through a JSON tree, and so does the proof: a tree of texts, whole numbers,
flags, nulls and arrays is read back from every way to write it, `readsBack_any`, and the kind of a
value is found in its tree, `ofJson?_toJson`. The kinds are tried in their order; what comes of that
for each form of a tree is `ofJson?_eq`. Only whole numbers have a form that two kinds take.

A tree does not know its own depth, and arrays hold arrays, so the ways to write a tree are defined
along the number of levels that are left for it. This is the recursion of the reader, too, and the
elements of an array of any values are read as those of an array whose elements have one type.
-/

namespace BookmarkGraph.Json

open Scan

/-! ## Ways to write trees -/

/-- The ways to write a value that is no container and has no fraction. -/
inductive WritesLeaf : Writing Json
  | null : WritesLeaf .null ['n', 'u', 'l', 'l']
  | bool {flag : Bool} {cs : List Char} : WritesBool flag cs → WritesLeaf (.bool flag) cs
  | number {n : UInt64} {cs : List Char} : WritesNumber n cs → WritesLeaf (.integer n.toNat) cs
  | negative {n : Nat} : 0 < n → n ≤ signedLimit →
    WritesLeaf (.integer (-n)) ('-' :: Nat.toDigits 10 n)
  | text {s : String} {cs : List Char} : WritesText s cs → WritesLeaf (.string s) cs

/-- The ways to write a tree whose arrays nest at most so deep. -/
def WritesTree : Nat → Writing Json
  | 0 => WritesLeaf
  | depth + 1 => fun json cs ↦
    WritesLeaf json cs ∨ ∃ items, json = .array items ∧ WritesList (WritesTree depth) items cs

section Trees

variable {json : Json} {cs ws : List Char} {depth n : Nat} {rest : List Symbol}

theorem numeralForm_toDigits (n : Nat) : NumeralForm (Nat.toDigits 10 n) := by
  have hnumeral := NumeralForm.parts (wholeForm_toDigits n) .none .none
  rwa [List.append_nil, List.append_nil] at hnumeral

theorem WritesLeaf.form (h : WritesLeaf json cs) : Form .value cs := by
  cases h with
  | null => exact .null
  | bool h => exact h.form
  | number h => exact h.form
  | negative _ _ => exact .negative (numeralForm_toDigits _)
  | text h => exact h.form

theorem WritesTree.form (h : WritesTree depth json cs) : Form .value cs := by
  induction depth generalizing json cs with
  | zero => exact WritesLeaf.form h
  | succ depth ih =>
    rcases h with h | ⟨items, -, h⟩
    · exact h.form
    · exact h.form fun _ _ ↦ ih

theorem WritesElements.imp {α : Type} {Writes Writes' : Writing α} {first : Bool} {xs : List α}
    (h : WritesElements Writes first xs cs) (himp : ∀ x ∈ xs, ∀ cs, Writes x cs → Writes' x cs) :
    WritesElements Writes' first xs cs := by
  induction h with
  | last hws => exact .last hws
  | element hsep hx _ ih =>
    exact .element hsep (himp _ List.mem_cons_self _ hx)
      (ih fun y hy ↦ himp y (List.mem_cons_of_mem _ hy))

/-! ## Reading trees -/

theorem value_negative {digits : List Nat} (h : extend 0 digits = (n, digits.length)) (hpos : 0 < n)
    (hn : n ≤ signedLimit) : value true ⟨digits, none, none⟩ = .ok (.integer (-n)) := by
  rw [value, h]
  simp [hpos, hn]

theorem number_negative (hpos : 0 < n) (hn : n ≤ signedLimit) (hrest : Stops rest) :
    number true ((Nat.toDigits 10 n).map some ++ rest) = .ok (.integer (-n), rest) := by
  have hvalue : Nat.ofDigitChars 10 (Nat.toDigits 10 n) 0 = n := Nat.ofDigitChars_ten_toDigits
  have hsize : n < UInt64.size := Nat.lt_of_le_of_lt hn (by decide)
  have hread : value true ⟨(Nat.toDigits 10 n).map fun c ↦ c.toNat - '0'.toNat, none, none⟩
      = .ok (.integer (-n)) := by
    refine value_negative ?_ hpos hn
    rw [extend_eq _ _ (by rwa [hvalue]), hvalue, List.length_map]
  rw [number, numeral_whole (wholeForm_toDigits _) hrest]
  change (value true _ >>= _) = _
  rw [hread]
  rfl

theorem any_blanks (hws : Blank ws) (hcs : Opens cs) (bound d : Nat) (rest : List Symbol) :
    Reader.any (bound + 1) d (ws.map some ++ (cs.map some ++ rest))
      = Reader.any (bound + 1) d (cs.map some ++ rest) := by
  have hsame := blanks_opens blank_nil hcs rest
  rw [List.map_nil, List.nil_append] at hsame
  rw [Reader.any.eq_def, Reader.any.eq_def _ _ (cs.map some ++ rest)]
  dsimp only
  rw [blanks_opens hws hcs, hsame]

theorem any_isDigit {c : Char} (hc : c.isDigit = true) (bound d : Nat) (input : List Symbol) :
    Reader.any (bound + 1) d (some c :: input) = number false (some c :: input) := by
  have hopens : Opens [c] := opens_of_isDigit hc
  have hblanks : blanks (some c :: input) = some c :: input := blanks_opens blank_nil hopens input
  have hdigit : Scan.isDigit (some c) = true := (isDigit_some c).trans hc
  rw [Reader.any.eq_def]
  dsimp only
  rw [hblanks]
  -- the other ways to begin a value are no digits
  split <;> simp_all

theorem WritesLeaf.any_eq (h : WritesLeaf json cs) (hws : Blank ws) {bound : Nat}
    (hbound : cs.length ≤ bound) (d : Nat) (hrest : Stops rest) :
    Reader.any bound d (ws.map some ++ (cs.map some ++ rest)) = .ok (json, rest) := by
  have hopens := h.form.opens
  obtain ⟨bound, rfl⟩ := Nat.exists_eq_add_of_le' (Nat.le_trans hopens.length_pos hbound)
  rw [any_blanks hws hopens]
  cases h with
  | null => rfl
  | bool h =>
    cases h with
    | yes => rfl
    | no => rfl
  | @number n _ h =>
    obtain ⟨⟩ := h
    have hdigits := digits_toDigits n.toNat
    have hnumber := number_toDigits n hrest
    obtain ⟨c, cs, heq⟩ := List.exists_cons_of_ne_nil hdigits.1
    have hc : c.isDigit = true := hdigits.2 c (by rw [heq]; exact List.mem_cons_self)
    rw [heq, List.map_cons, List.cons_append] at hnumber ⊢
    rw [any_isDigit hc, hnumber]
  | negative hpos hn => exact number_negative hpos hn hrest
  | text h =>
    obtain @⟨text, hchars⟩ := h
    change (Scan.text bound (text.map some ++ rest) >>= _) = _
    rw [text_eq hchars (Nat.le_of_succ_le_succ hbound)]
    rfl

/-- The elements of an array of any values are read like those of one type. -/
theorem anyElements_eq (bound d : Nat) (first : Bool) (input : List Symbol) :
    Reader.anyElements bound d first input = Reader.elements Reader.any d bound first input := by
  induction bound generalizing first input with
  | zero => rw [Reader.anyElements, Reader.elements]
  | succ bound ih =>
    rw [Reader.anyElements, Reader.elements]
    simp only [ih]

/-- **Trees.** A tree is read back from every way to write it. -/
theorem readsBack_any (depth : Nat) : ReadsBack Reader.any depth (WritesTree depth) := by
  induction depth with
  | zero => exact ⟨WritesLeaf.form, fun h hws hbound _ hrest ↦ h.any_eq hws hbound _ hrest⟩
  | succ depth ih =>
    refine ⟨WritesTree.form, ?_⟩
    rintro json cs ws bound d rest (h | ⟨items, rfl, h⟩) hws hbound hd hrest
    · exact h.any_eq hws hbound d hrest
    · have hopens := (h.form fun _ _ ↦ ih.form).opens
      obtain ⟨d, rfl⟩ : ∃ n, d = n + 1 := Nat.exists_eq_add_of_le' (Nat.le_trans (by omega) hd)
      obtain ⟨bound, rfl⟩ := Nat.exists_eq_add_of_le' (Nat.le_trans hopens.length_pos hbound)
      rw [any_blanks hws hopens]
      obtain @⟨_, cs, helements⟩ := h
      change (Reader.anyElements bound d true (cs.map some ++ rest) >>= _) = _
      rw [anyElements_eq, ih.elements helements (Nat.le_of_succ_le_succ hbound)
        (Nat.le_of_succ_le_succ hd)]
      rfl

end Trees

/-! ## Trees that are printed -/

/-- A way to print JSON values in which integers have their digits, with a sign in front if they are
negative. -/
structure PrintsIntegers (print : Nat → Json → List Char) : Prop extends Prints print where
  /-- Integers. -/
  integer (level : Nat) (i : Int) : print level (.integer i) = (toString i).toList

theorem printsIntegers_compact : PrintsIntegers fun _ value ↦ value.compact.toList where
  toPrints := prints_compact
  integer _ i := by rw [compact]

theorem printsIntegers_pretty : PrintsIntegers fun level value ↦ (value.prettyAt level).toList where
  toPrints := prints_pretty
  integer _ i := by rw [prettyAt]

theorem writesLeaf_integer (i : Int64) :
    WritesLeaf (.integer i.toInt) (toString i.toInt).toList := by
  have hlow : -(signedLimit : Int) ≤ i.toInt := i.le_toInt
  have hhigh : i.toInt < (signedLimit : Int) := i.toInt_lt
  have hsize : signedLimit < UInt64.size := by decide
  rw [Numeral.toList_toString_int]
  split
  · rename_i hsign
    have hleaf := WritesLeaf.number (.digits (n := UInt64.ofNat i.toInt.natAbs))
    rwa [UInt64.toNat_ofNat_of_lt' (by omega), Int.natAbs_of_nonneg hsign] at hleaf
  · rename_i hsign
    have hi : -(i.toInt.natAbs : Int) = i.toInt := by omega
    have hleaf := WritesLeaf.negative (n := i.toInt.natAbs) (by omega) (by omega)
    rwa [hi] at hleaf

end BookmarkGraph.Json

namespace BookmarkGraph

open Json

/-! ## Ids -/

namespace ElementId

theorem ofJson?_eq (json : Json) : ofJson? json =
    match json with
    | .integer n => if 0 ≤ n ∧ n < UInt64.size then some (number (UInt64.ofNat n.toNat)) else none
    | .string s => some (name s)
    | _ => none := by
  cases json with
  | integer n =>
    dsimp only [ofJson?, asUnsigned?, asText?]
    split <;> rfl
  | _ => rfl

theorem ofJson?_toJson (id : ElementId) : ofJson? id.toJson = some id := by
  rw [ofJson?_eq]
  cases id with
  | number n =>
    have hn : (0 : Int) ≤ n.toNat ∧ (n.toNat : Int) < UInt64.size :=
      ⟨Int.natCast_nonneg _, Int.ofNat_lt.mpr n.toNat_lt⟩
    exact (if_pos hn).trans (by rw [Int.toNat_natCast, UInt64.ofNat_toNat])
  | name s => rfl

theorem writesTree_toJson {print : Nat → Json → List Char} (h : Prints print) (level : Nat)
    (id : ElementId) : WritesTree 0 id.toJson (print level id.toJson) := by
  cases id with
  | number n => exact WritesLeaf.number (h.number level n)
  | name s => exact WritesLeaf.text (h.text level s)

theorem readsBack : ReadsBack reader 0 fun id cs ↦ WritesTree 0 id.toJson cs where
  form h := h.form
  read {id cs ws bound d rest} h hws hbound hd hrest := by
    rw [reader, (readsBack_any 0).read h hws hbound hd hrest, ok_bind]
    dsimp only
    rw [ofJson?_toJson]
    rfl

end ElementId

/-! ## Property values -/

namespace Value

/-- Values without floats whose lists nest at most so deep. -/
inductive Nests : Value → Nat → Prop
  | null {depth : Nat} : Nests .null depth
  | bool {depth : Nat} (flag : Bool) : Nests (.bool flag) depth
  | integer {depth : Nat} (i : Int64) : Nests (.integer i) depth
  | text {depth : Nat} (s : String) : Nests (.text s) depth
  | list {depth : Nat} {items : List Value} : (∀ item ∈ items, Nests item depth) →
    Nests (.list items) (depth + 1)

variable {depth : Nat} {v : Value}

theorem toJsonList_eq (items : List Value) : toJsonList items = items.map toJson := by
  induction items with
  | nil => rfl
  | cons item items ih => rw [toJsonList, ih, List.map_cons]

theorem ofJsonList?_map {items : List Value}
    (h : ∀ item ∈ items, ofJson? item.toJson = some item) :
    ofJsonList? (items.map toJson) = some items := by
  induction items with
  | nil => rfl
  | cons item items ih =>
    rw [List.map_cons, ofJsonList?, h item List.mem_cons_self,
      ih fun item hitem ↦ h item (List.mem_cons_of_mem _ hitem)]
    rfl

theorem ofJson?_eq (json : Json) : ofJson? json =
    match json with
    | .null => some null
    | .bool flag => some (bool flag)
    | .integer n =>
      if -(signedLimit : Int) ≤ n ∧ n < signedLimit then some (integer (Int64.ofInt n))
      else some (float (Double.ofInt n))
    | .float x => some (float x)
    | .string s => some (text s)
    | .array items => (ofJsonList? items).map list
    | .object _ => none := by
  rw [ofJson?.eq_def]
  cases json with
  | integer n =>
    dsimp only [asNull?, asBool?, asSigned?, asDouble?]
    split <;> rfl
  | array items => cases ofJsonList? items <;> rfl
  | _ => rfl

/-- The kind of a value is found in its shape. -/
theorem Nests.ofJson?_toJson (h : Nests v depth) : ofJson? v.toJson = some v := by
  rw [ofJson?_eq]
  induction h with
  | null => rfl
  | bool flag => rfl
  | integer i =>
    have hi : -(signedLimit : Int) ≤ i.toInt ∧ i.toInt < signedLimit := ⟨i.le_toInt, i.toInt_lt⟩
    rw [toJson]
    exact (if_pos hi).trans (by rw [Int64.ofInt_toInt])
  | text s => rfl
  | @list _ items _ ih =>
    have hitems : ∀ item ∈ items, ofJson? item.toJson = some item := fun item hitem ↦
      (ofJson?_eq _).trans (ih item hitem)
    rw [toJson, toJsonList_eq]
    change (ofJsonList? (items.map toJson)).map Value.list = _
    rw [ofJsonList?_map hitems, Option.map_some]

theorem Nests.writesTree_toJson {print : Nat → Json → List Char} (hprint : PrintsIntegers print)
    (h : Nests v depth) (level : Nat) : WritesTree depth v.toJson (print level v.toJson) := by
  have hleaf : ∀ {depth json cs}, WritesLeaf json cs → WritesTree depth json cs := by
    rintro (_ | depth) json cs hleaf
    · exact hleaf
    · exact .inl hleaf
  induction h generalizing level with
  | null =>
    rw [toJson, hprint.null]
    exact hleaf .null
  | bool flag => exact hleaf (.bool (hprint.bool level flag))
  | integer i =>
    rw [toJson, hprint.integer]
    exact hleaf (writesLeaf_integer i)
  | text s => exact hleaf (.text (hprint.text level s))
  | @list depth items hitems ih =>
    have harray := hprint.array level (items.map toJson)
    rw [toJson, toJsonList_eq]
    generalize print level (.array (items.map toJson)) = cs at harray ⊢
    obtain ⟨helements⟩ := harray
    refine .inr ⟨_, rfl, .elements (helements.imp ?_)⟩
    rintro _ hitem _ rfl
    obtain ⟨item, hmem, rfl⟩ := List.mem_map.mp hitem
    exact ih item hmem (level + 1)

theorem readsBack (depth : Nat) :
    ReadsBack reader depth fun v cs ↦ Nests v depth ∧ WritesTree depth v.toJson cs where
  form h := h.2.form
  read {v cs ws bound d rest} h hws hbound hd hrest := by
    rw [reader, (readsBack_any depth).read h.2 hws hbound hd hrest, ok_bind]
    dsimp only
    rw [h.1.ofJson?_toJson]
    rfl

end Value

/-! ## Documents -/

section Documents

variable {α : Type} {reader : Reader α} {depth : Nat} {Writes : Writing α} {x : α} {json : Json}

/-- What is printed on one line or on several is read back, if this is a way to write it. -/
theorem document_print (h : ReadsBack reader depth Writes) (hdepth : depth ≤ Reader.depthLimit)
    (hprint : ∀ print, PrintsIntegers print → Writes x (print 0 json)) {text : String}
    (htext : text = json.compact ∨ text = json.pretty) :
    reader.document (Symbol.ofString text) = .ok x := by
  have hread : ∀ cs, Writes x cs → reader.document (cs.map some) = .ok x := by
    intro cs hcs
    have hdocument := h.document hdepth blank_nil hcs blank_nil
    rwa [List.nil_append, List.append_nil] at hdocument
  rcases htext with rfl | rfl
  · exact hread _ (hprint _ printsIntegers_compact)
  · exact hread _ (hprint _ printsIntegers_pretty)

end Documents

/-- **Ids and property values survive JSON.** Every id is read back from its text, and so is every
value without floats whose lists nest at most 127 deep. -/
theorem survives_json :
    (∀ (id : ElementId) (text : String), text = id.toJson.compact ∨ text = id.toJson.pretty →
      ElementId.reader.document (Symbol.ofString text) = .ok id) ∧
    ∀ v : Value, v.Nests 127 → ∀ text, text = v.toJson.compact ∨ text = v.toJson.pretty →
      Value.reader.document (Symbol.ofString text) = .ok v := by
  constructor
  · intro id text htext
    exact document_print ElementId.readsBack (Nat.zero_le _)
      (fun _ hprint ↦ id.writesTree_toJson hprint.toPrints 0) htext
  · intro v hv text htext
    exact document_print (Value.readsBack 127) (Nat.le_refl _)
      (fun _ hprint ↦ ⟨hv, hv.writesTree_toJson hprint 0⟩) htext

/-- A list of values that look alike: a null, a flag and a number next to texts that spell them, the
least and the greatest integer, and lists within lists. -/
def Value.lookalikes : Value :=
  .list [.null, .text "null", .bool true, .text "true", .integer 12, .text "12",
    .list [.integer Int64.minValue, .integer Int64.maxValue], .list [.list [], .list [.text "[]"]]]

theorem Value.nests_lookalikes (depth : Nat) : lookalikes.Nests (depth + 3) := by
  have hends : (Value.list [.integer Int64.minValue, .integer Int64.maxValue]).Nests (depth + 2) :=
    .list (by simpa using ⟨.integer _, .integer _⟩)
  have hlists : (Value.list [.list [], .list [.text "[]"]]).Nests (depth + 2) :=
    .list (by simpa using ⟨.list (by simp), .list (by simpa using .text _)⟩)
  refine .list ?_
  simp only [List.forall_mem_cons, List.not_mem_nil, false_imp_iff, implies_true, and_true]
  exact ⟨.null, .text _, .bool _, .text _, .integer _, .text _, hends, hlists⟩

/-- Values that look alike stay what they are, on one line and on several, and a number of 64 bits
is told from the name with the same digits. -/
theorem survives_json_lookalikes :
    Value.reader.document (Symbol.ofString Value.lookalikes.toJson.compact)
        = .ok Value.lookalikes ∧
      Value.reader.document (Symbol.ofString Value.lookalikes.toJson.pretty)
        = .ok Value.lookalikes ∧
      ElementId.reader.document (Symbol.ofString "18446744073709551615")
        = .ok (.number 18446744073709551615) ∧
      ElementId.reader.document (Symbol.ofString "\"18446744073709551615\"")
        = .ok (.name "18446744073709551615") := by
  obtain ⟨hids, hvalues⟩ := survives_json
  exact ⟨hvalues _ (Value.nests_lookalikes 124) _ (.inl rfl),
    hvalues _ (Value.nests_lookalikes 124) _ (.inr rfl),
    hids (.number 18446744073709551615) _ (.inl (by decide)),
    hids (.name "18446744073709551615") _ (.inl (by decide))⟩

end BookmarkGraph
