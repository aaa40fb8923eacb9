import BookmarkGraph.Domain.Snapshot
import BookmarkGraph.Proofs.Json.Reading
import BookmarkGraph.Proofs.Text.Utf8

/-!
# Every rendering of a snapshot is read back

A snapshot can be rendered in many ways: the fields of each record in any order, those with their
defaults left out, members of other names added, and blanks between all parts. `Snapshot.Renders`
says which texts these are, without a reader; what `Snapshot.toJson` prints is one of them.

For each record the fields are listed twice, as what is written (`slots`) and as what is read
(`columns`), and both lists are compared with the definitions that run. The rest is the general
theorem on records.
-/

namespace BookmarkGraph

open Json

/-! ## Renderings -/

/-- The fields of a profile, as they are written. -/
def ProfileRecord.slots (r : ProfileRecord) : List Slot := [
  .given "id" WritesNumber r.id,
  .given "username" WritesText r.username,
  .filled "role" none (WritesOption WritesText) r.role,
  .filled "organizations" [] (WritesList WritesNumber) r.organizations,
  .filled "stewarded_organizations" [] (WritesList WritesNumber) r.stewardedOrganizations]

def AgencyRecord.slots (r : AgencyRecord) : List Slot := [
  .given "id" WritesNumber r.id,
  .given "title" WritesText r.title,
  .filled "short_name" "" WritesText r.shortName]

def CategoryRecord.slots (r : CategoryRecord) : List Slot := [
  .given "id" WritesNumber r.id,
  .given "title" WritesText r.title]

def ListingRecord.slots (r : ListingRecord) : List Slot := [
  .given "id" WritesNumber r.id,
  .given "title" WritesText r.title,
  .filled "description" none (WritesOption WritesText) r.description,
  .filled "is_enabled" true WritesBool r.isEnabled,
  .filled "is_deleted" false WritesBool r.isDeleted,
  .filled "is_featured" false WritesBool r.isFeatured,
  .filled "is_private" false WritesBool r.isPrivate,
  .filled "approval_status" "APPROVED" WritesText r.approvalStatus,
  .filled "categories" [] (WritesList WritesNumber) r.categories,
  .filled "agency" none (WritesOption WritesNumber) r.agency]

def BookmarkRecord.slots (r : BookmarkRecord) : List Slot := [
  .given "profile" WritesNumber r.profile,
  .given "listing" WritesNumber r.listing]

def Snapshot.slots (s : Snapshot) : List Slot := [
  .filled "profiles" [] (WritesList fun r ↦ WritesObject r.slots) s.profiles,
  .filled "agencies" [] (WritesList fun r ↦ WritesObject r.slots) s.agencies,
  .filled "categories" [] (WritesList fun r ↦ WritesObject r.slots) s.categories,
  .filled "listings" [] (WritesList fun r ↦ WritesObject r.slots) s.listings,
  .filled "bookmarks" [] (WritesList fun r ↦ WritesObject r.slots) s.bookmarks]

/-- The texts that stand for a snapshot, with blanks around them. -/
def Snapshot.Renders (s : Snapshot) (text : String) : Prop :=
  ∃ ws cs ws', Blank ws ∧ WritesObject s.slots cs ∧ Blank ws' ∧ text.toList = ws ++ (cs ++ ws')

/-! ## What is printed renders -/

section Printing

variable {print : Nat → Json → List Char}

theorem ProfileRecord.writes_toJson (h : Prints print) (level : Nat) (r : ProfileRecord) :
    WritesObject r.slots (print level r.toJson) := by
  have htoJson : r.toJson = .object [
      ("id", .integer r.id.toNat),
      ("username", .string r.username),
      ("role", r.role.elim .null .string),
      ("organizations", .array (r.organizations.map fun n ↦ .integer n.toNat)),
      ("stewarded_organizations", .array (r.stewardedOrganizations.map fun n ↦ .integer n.toNat))]
      := by
    obtain ⟨id, username, role, organizations, stewarded⟩ := r
    cases role <;> rfl
  rw [htoJson]
  exact h.record (.keep (h.number _ _) (.keep (h.text _ _) (.keep (h.option (h.text _) _)
    (.keep (h.list (h.number _) _) (.keep (h.list (h.number _) _) .nil)))))

theorem AgencyRecord.writes_toJson (h : Prints print) (level : Nat) (r : AgencyRecord) :
    WritesObject r.slots (print level r.toJson) :=
  h.record (.keep (h.number _ _) (.keep (h.text _ _) (.keep (h.text _ _) .nil)))

theorem CategoryRecord.writes_toJson (h : Prints print) (level : Nat) (r : CategoryRecord) :
    WritesObject r.slots (print level r.toJson) :=
  h.record (.keep (h.number _ _) (.keep (h.text _ _) .nil))

theorem ListingRecord.writes_toJson (h : Prints print) (level : Nat) (r : ListingRecord) :
    WritesObject r.slots (print level r.toJson) := by
  have htoJson : r.toJson = .object [
      ("id", .integer r.id.toNat),
      ("title", .string r.title),
      ("description", r.description.elim .null .string),
      ("is_enabled", .bool r.isEnabled),
      ("is_deleted", .bool r.isDeleted),
      ("is_featured", .bool r.isFeatured),
      ("is_private", .bool r.isPrivate),
      ("approval_status", .string r.approvalStatus),
      ("categories", .array (r.categories.map fun n ↦ .integer n.toNat)),
      ("agency", r.agency.elim .null fun n ↦ .integer n.toNat)] := by
    obtain ⟨id, title, description, enabled, deleted, featured, isPrivate, status, categories,
      agency⟩ := r
    cases description <;> cases agency <;> rfl
  rw [htoJson]
  exact h.record (.keep (h.number _ _) (.keep (h.text _ _) (.keep (h.option (h.text _) _)
    (.keep (h.bool _ _) (.keep (h.bool _ _) (.keep (h.bool _ _) (.keep (h.bool _ _)
      (.keep (h.text _ _) (.keep (h.list (h.number _) _)
        (.keep (h.option (h.number _) _) .nil))))))))))

theorem BookmarkRecord.writes_toJson (h : Prints print) (level : Nat) (r : BookmarkRecord) :
    WritesObject r.slots (print level r.toJson) :=
  h.record (.keep (h.number _ _) (.keep (h.number _ _) .nil))

theorem Snapshot.writes_toJson (h : Prints print) (level : Nat) (s : Snapshot) :
    WritesObject s.slots (print level s.toJson) :=
  h.record (.keep (h.list (ProfileRecord.writes_toJson h _) _)
    (.keep (h.list (AgencyRecord.writes_toJson h _) _)
      (.keep (h.list (CategoryRecord.writes_toJson h _) _)
        (.keep (h.list (ListingRecord.writes_toJson h _) _)
          (.keep (h.list (BookmarkRecord.writes_toJson h _) _) .nil)))))

end Printing

/-! ## What renders is read -/

section Fields

theorem readsBack_number : ReadsBack Reader.unsigned 1 WritesNumber :=
  readsBack_unsigned.mono (Nat.zero_le 1)

theorem readsBack_text : ReadsBack Reader.string 1 WritesText :=
  readsBack_string.mono (Nat.zero_le 1)

theorem readsBack_flag : ReadsBack Reader.bool 1 WritesBool := readsBack_bool.mono (Nat.zero_le 1)

theorem readsBack_numbers : ReadsBack (Reader.list .unsigned) 1 (WritesList WritesNumber) :=
  readsBack_unsigned.list

theorem readsBack_optionalText :
    ReadsBack (Reader.optional .string) 1 (WritesOption WritesText) :=
  readsBack_text.optional WritesText.head?_ne

theorem readsBack_optionalNumber :
    ReadsBack (Reader.optional .unsigned) 1 (WritesOption WritesNumber) :=
  readsBack_number.optional WritesNumber.head?_ne

end Fields

namespace ProfileRecord

/-- The fields of a profile, as they are read. -/
def columns : List (Column ProfileRecord) := [
  ⟨"id", none, WritesNumber, .unsigned, fun r v ↦ { r with id := v }, id⟩,
  ⟨"username", none, WritesText, .string, fun r v ↦ { r with username := v }, username⟩,
  ⟨"role", some none, WritesOption WritesText, .optional .string,
    fun r v ↦ { r with role := v }, role⟩,
  ⟨"organizations", some [], WritesList WritesNumber, .list .unsigned,
    fun r v ↦ { r with organizations := v }, organizations⟩,
  ⟨"stewarded_organizations", some [], WritesList WritesNumber, .list .unsigned,
    fun r v ↦ { r with stewardedOrganizations := v }, stewardedOrganizations⟩]

theorem lawful : LawfulColumns columns 1 ⟨0, "", none, [], []⟩ where
  nodup := by decide
  readsBack := by
    simp only [columns, List.forall_mem_cons]
    exact ⟨readsBack_number, readsBack_text, readsBack_optionalText, readsBack_numbers,
      readsBack_numbers, fun _ h ↦ absurd h List.not_mem_nil⟩
  blank := by simp [columns]
  get_set := by simp [columns]
  get_set_ne := by simp [columns]
  ext x y h := by
    cases x
    cases y
    simpa [columns] using h

theorem readsBack : ReadsBack reader 2 fun r ↦ WritesObject (slots r) := lawful.readsBack_record

end ProfileRecord

namespace AgencyRecord

/-- The fields of an agency, as they are read. -/
def columns : List (Column AgencyRecord) := [
  ⟨"id", none, WritesNumber, .unsigned, fun r v ↦ { r with id := v }, id⟩,
  ⟨"title", none, WritesText, .string, fun r v ↦ { r with title := v }, title⟩,
  ⟨"short_name", some "", WritesText, .string, fun r v ↦ { r with shortName := v }, shortName⟩]

theorem lawful : LawfulColumns columns 1 ⟨0, "", ""⟩ where
  nodup := by decide
  readsBack := by
    simp only [columns, List.forall_mem_cons]
    exact ⟨readsBack_number, readsBack_text, readsBack_text, fun _ h ↦ absurd h List.not_mem_nil⟩
  blank := by simp [columns]
  get_set := by simp [columns]
  get_set_ne := by simp [columns]
  ext x y h := by
    cases x
    cases y
    simpa [columns] using h

theorem readsBack : ReadsBack reader 2 fun r ↦ WritesObject (slots r) := lawful.readsBack_record

end AgencyRecord

namespace CategoryRecord

/-- The fields of a category, as they are read. -/
def columns : List (Column CategoryRecord) := [
  ⟨"id", none, WritesNumber, .unsigned, fun r v ↦ { r with id := v }, id⟩,
  ⟨"title", none, WritesText, .string, fun r v ↦ { r with title := v }, title⟩]

theorem lawful : LawfulColumns columns 1 ⟨0, ""⟩ where
  nodup := by decide
  readsBack := by
    simp only [columns, List.forall_mem_cons]
    exact ⟨readsBack_number, readsBack_text, fun _ h ↦ absurd h List.not_mem_nil⟩
  blank := by simp [columns]
  get_set := by simp [columns]
  get_set_ne := by simp [columns]
  ext x y h := by
    cases x
    cases y
    simpa [columns] using h

theorem readsBack : ReadsBack reader 2 fun r ↦ WritesObject (slots r) := lawful.readsBack_record

end CategoryRecord

namespace ListingRecord

/-- The fields of a listing, as they are read. -/
def columns : List (Column ListingRecord) := [
  ⟨"id", none, WritesNumber, .unsigned, fun r v ↦ { r with id := v }, id⟩,
  ⟨"title", none, WritesText, .string, fun r v ↦ { r with title := v }, title⟩,
  ⟨"description", some none, WritesOption WritesText, .optional .string,
    fun r v ↦ { r with description := v }, description⟩,
  ⟨"is_enabled", some true, WritesBool, .bool, fun r v ↦ { r with isEnabled := v }, isEnabled⟩,
  ⟨"is_deleted", some false, WritesBool, .bool, fun r v ↦ { r with isDeleted := v }, isDeleted⟩,
  ⟨"is_featured", some false, WritesBool, .bool, fun r v ↦ { r with isFeatured := v }, isFeatured⟩,
  ⟨"is_private", some false, WritesBool, .bool, fun r v ↦ { r with isPrivate := v }, isPrivate⟩,
  ⟨"approval_status", some "APPROVED", WritesText, .string,
    fun r v ↦ { r with approvalStatus := v }, approvalStatus⟩,
  ⟨"categories", some [], WritesList WritesNumber, .list .unsigned,
    fun r v ↦ { r with categories := v }, categories⟩,
  ⟨"agency", some none, WritesOption WritesNumber, .optional .unsigned,
    fun r v ↦ { r with agency := v }, agency⟩]

theorem lawful : LawfulColumns columns 1 { id := 0, title := "" } where
  nodup := by decide
  readsBack := by
    simp only [columns, List.forall_mem_cons]
    exact ⟨readsBack_number, readsBack_text, readsBack_optionalText, readsBack_flag, readsBack_flag,
      readsBack_flag, readsBack_flag, readsBack_text, readsBack_numbers, readsBack_optionalNumber,
      fun _ h ↦ absurd h List.not_mem_nil⟩
  blank := by simp [columns]
  get_set := by simp [columns]
  get_set_ne := by simp [columns]
  ext x y h := by
    cases x
    cases y
    simpa [columns] using h

theorem readsBack : ReadsBack reader 2 fun r ↦ WritesObject (slots r) := lawful.readsBack_record

end ListingRecord

namespace BookmarkRecord

/-- The fields of a bookmark, as they are read. -/
def columns : List (Column BookmarkRecord) := [
  ⟨"profile", none, WritesNumber, .unsigned, fun r v ↦ { r with profile := v }, profile⟩,
  ⟨"listing", none, WritesNumber, .unsigned, fun r v ↦ { r with listing := v }, listing⟩]

theorem lawful : LawfulColumns columns 1 ⟨0, 0⟩ where
  nodup := by decide
  readsBack := by
    simp only [columns, List.forall_mem_cons]
    exact ⟨readsBack_number, readsBack_number, fun _ h ↦ absurd h List.not_mem_nil⟩
  blank := by simp [columns]
  get_set := by simp [columns]
  get_set_ne := by simp [columns]
  ext x y h := by
    cases x
    cases y
    simpa [columns] using h

theorem readsBack : ReadsBack reader 2 fun r ↦ WritesObject (slots r) := lawful.readsBack_record

end BookmarkRecord

namespace Snapshot

/-- The tables of a snapshot, as they are read. -/
def columns : List (Column Snapshot) := [
  ⟨"profiles", some [], WritesList fun r ↦ WritesObject r.slots, .list ProfileRecord.reader,
    fun s v ↦ { s with profiles := v }, profiles⟩,
  ⟨"agencies", some [], WritesList fun r ↦ WritesObject r.slots, .list AgencyRecord.reader,
    fun s v ↦ { s with agencies := v }, agencies⟩,
  ⟨"categories", some [], WritesList fun r ↦ WritesObject r.slots, .list CategoryRecord.reader,
    fun s v ↦ { s with categories := v }, categories⟩,
  ⟨"listings", some [], WritesList fun r ↦ WritesObject r.slots, .list ListingRecord.reader,
    fun s v ↦ { s with listings := v }, listings⟩,
  ⟨"bookmarks", some [], WritesList fun r ↦ WritesObject r.slots, .list BookmarkRecord.reader,
    fun s v ↦ { s with bookmarks := v }, bookmarks⟩]

theorem lawful : LawfulColumns columns 3 {} where
  nodup := by decide
  readsBack := by
    simp only [columns, List.forall_mem_cons]
    exact ⟨ProfileRecord.readsBack.list, AgencyRecord.readsBack.list, CategoryRecord.readsBack.list,
      ListingRecord.readsBack.list, BookmarkRecord.readsBack.list,
      fun _ h ↦ absurd h List.not_mem_nil⟩
  blank := by simp [columns]
  get_set := by simp [columns]
  get_set_ne := by simp [columns]
  ext x y h := by
    cases x
    cases y
    simpa [columns] using h

theorem readsBack : ReadsBack reader 4 fun s ↦ WritesObject (slots s) := lawful.readsBack_record

/-- **Renderings.** What is printed for a snapshot, on one line or on several, is a rendering of it,
and every rendering is read back as the snapshot. -/
theorem ofDocument_renders (s : Snapshot) :
    s.Renders s.toJson.compact ∧ s.Renders s.toJson.pretty ∧
      ∀ text, s.Renders text → ofDocument (Symbol.ofBytes text.toUTF8.data.toList) = .ok s := by
  refine ⟨⟨[], _, [], blank_nil, writes_toJson prints_compact 0 s, blank_nil, ?_⟩,
    ⟨[], _, [], blank_nil, writes_toJson prints_pretty 0 s, blank_nil, ?_⟩, ?_⟩
  · rw [List.nil_append, List.append_nil]
  · rw [List.nil_append, List.append_nil, Json.pretty]
  · rintro text ⟨ws, cs, ws', hws, hcs, hws', htext⟩
    have hread : reader.document (Symbol.ofString text) = .ok s := by
      rw [Symbol.ofString, htext]
      exact readsBack.document (by decide) hws hcs hws'
    rw [Symbol.ofBytes_utf8, ofDocument, hread]

def shelf : Snapshot := { categories := [⟨7, "Wiki"⟩] }

/-- A rendering of the shelf: the other tables are left out, an unknown member is added, and the
fields of the category are not in their order. -/
def shelfText : String :=
  "\x7b\"version\": [1], \"categories\": [\x7b\"title\": \"Wiki\", \"id\": 7\x7d]\x7d"

theorem renders_shelf : shelf.Renders shelfText := by
  have hmember : ∀ {first : Bool} {sep cs rest : List Char} {members : List Member} (key : String),
      Separates first sep → WritesMembers false members rest →
      WritesMembers first ((key, cs) :: members)
        (sep ++ ((quote key).toList ++ ([] ++ ':' :: ([' '] ++ (cs ++ rest))))) :=
    fun key hsep hrest ↦ .member hsep (writesText_quote key) blank_nil blank_space hrest
  have hlater : Separates false [',', ' '] := .next blank_nil blank_space
  have hversion : Form .value ['[', '1', ']'] := by
    have hone : WritesNumber 1 ['1'] := .digits
    exact .array (.element (.first blank_nil) hone.form (.lastElement blank_nil))
  have hseven : WritesNumber 7 ['7'] := .digits
  have hkept : Keeps (CategoryRecord.slots ⟨7, "Wiki"⟩)
      [("id", ['7']), ("title", (quote "Wiki").toList)] :=
    .keep hseven (.keep (writesText_quote "Wiki") .nil)
  have hcategory := WritesObject.members hkept (fun m hm ↦ absurd hm List.not_mem_nil)
    (.swap _ _ _) (hmember "title" (.first blank_nil) (hmember "id" hlater (.last blank_nil)))
  have hcategories : WritesList (fun r ↦ WritesObject (CategoryRecord.slots r)) [⟨7, "Wiki"⟩] _ :=
    .elements (.element (.first blank_nil) hcategory (.last blank_nil))
  have hadded : ∀ m ∈ [("version", ['[', '1', ']'])],
      m.1 ∉ shelf.slots.map Slot.key ∧ Form .value m.2 := by
    intro m hm
    rw [List.mem_singleton.mp hm]
    exact ⟨by decide, hversion⟩
  exact ⟨[], _, [], blank_nil,
    .members (.drop rfl (.drop rfl (.keep hcategories (.drop rfl (.drop rfl .nil))))) hadded
      (.swap _ _ _)
      (hmember "version" (.first blank_nil) (hmember "categories" hlater (.last blank_nil))),
    blank_nil, rfl⟩

theorem ofDocument_shelf :
    shelf.Renders shelfText ∧
      ofDocument (Symbol.ofBytes shelfText.toUTF8.data.toList) = .ok shelf :=
  ⟨renders_shelf, (ofDocument_renders shelf).2.2 shelfText renders_shelf⟩

end Snapshot

end BookmarkGraph
