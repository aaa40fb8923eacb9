import BookmarkGraph.Proofs.Table.Updates

/-!
# Tables in memory

In memory a table consists of two parts: an array that has the order, and a hash map that finds a
key. Nothing in the types ties the parts together. A slot could lie behind the last row or in the
row of another key, and a key could have a place in the order and no value. A lookup that meets such
a thing has no result.

There are two layouts. `Table.Indexed` has whole rows in the array and maps keys to slots;
`Table.Listed` has bare keys in the array and maps keys to values. For both, `Holds` says which
table the parts are, and every operation has a result and keeps step with the operation on the
table.
-/

namespace BookmarkGraph.Table

/-! ## Rows in slots -/

/-- Rows in an array, and the slots in which the keys have theirs. -/
structure Indexed (κ α : Type) [BEq κ] [Hashable κ] where
  /-- Keys and their values, the key used first at the head. -/
  rows : Array (κ × α)
  /-- The slot of every key in use. -/
  slots : Std.HashMap κ Nat

variable {κ α : Type} [BEq κ] [Hashable κ]

namespace Indexed

/-- No rows and no slots. -/
def empty : Indexed κ α := ⟨#[], ∅⟩

/-- The slot of a key. A key that has none gets one behind the last row. -/
def slotOf (s : Indexed κ α) (key : κ) (first : α) : Nat × Indexed κ α :=
  match s.slots[key]? with
  | some slot => (slot, s)
  | none =>
    let rows := s.rows.push (key, first)
    let slot := rows.size - 1
    (slot, ⟨rows, s.slots.insert key slot⟩)

/-- Changes the value in the slot of a key, which may be a new one. There is no result if the slot
has no row. -/
def update? (s : Indexed κ α) (key : κ) (first : α) (f : α → α) : Option (Indexed κ α) :=
  let (slot, s) := s.slotOf key first
  if slot < s.rows.size then
    some { s with rows := s.rows.modify slot fun row ↦ (row.1, f row.2) }
  else none

/-- The value in the slot of a key, if the key has one. There is no result if the slot has no
row. -/
def read? (s : Indexed κ α) (key : κ) : Option (Option α) :=
  match s.slots[key]? with
  | some slot => s.rows[slot]?.map fun row ↦ some row.2
  | none => some none

/-- The rows are those of the table, and the slots are the places of the keys. -/
structure Holds (s : Indexed κ α) (t : Table κ α) : Prop where
  /-- The array has the rows in their order. -/
  rows : s.rows.toList = t.rows
  /-- A slot is the place of its key, and no key goes without one. -/
  slots : ∀ (key : κ) (slot : Nat), s.slots[key]? = some slot ↔ t.keys[slot]? = some key

theorem holds_empty : (empty : Indexed κ α).Holds .empty where
  rows := rfl
  slots key slot := by
    rw [empty, Std.HashMap.getElem?_empty]
    simp [Table.empty, keys]

namespace Holds

variable {s : Indexed κ α} {t : Table κ α}

theorem size_eq (h : s.Holds t) : s.rows.size = t.size := by
  rw [← Array.length_toList, h.rows, size]

theorem exists_row (h : s.Holds t) {key : κ} {slot : Nat} (hslot : s.slots[key]? = some slot) :
    ∃ a, s.rows[slot]? = some (key, a) := by
  have hkey := (h.slots key slot).mp hslot
  rw [keys, ← h.rows, List.getElem?_map, Array.getElem?_toList] at hkey
  obtain ⟨row, hrow, rfl⟩ := Option.map_eq_some_iff.mp hkey
  exact ⟨row.2, hrow⟩

theorem mem_keys_iff (h : s.Holds t) {key : κ} :
    key ∈ t.keys ↔ ∃ slot, s.slots[key]? = some slot := by
  rw [List.mem_iff_getElem?]
  exact exists_congr fun slot ↦ (h.slots key slot).symm

variable [LawfulBEq κ]

theorem read?_eq (h : s.Holds t) (key : κ) : s.read? key = some (t.get? key) := by
  rw [read?]
  split
  · rename_i slot hslot
    obtain ⟨a, hrow⟩ := h.exists_row hslot
    have hmem : (key, a) ∈ t.rows := h.rows ▸ Array.mem_toList_iff.mpr (Array.mem_of_getElem? hrow)
    rw [hrow, Option.map_some, get?_eq_some.mpr hmem]
  · rename_i hnone
    refine congrArg some (get?_eq_none.mpr fun hkey ↦ ?_).symm
    obtain ⟨slot, hslot⟩ := h.mem_keys_iff.mp hkey
    rw [hnone] at hslot
    cases hslot

/-- A row behind the last one, under a new key. -/
theorem push (h : s.Holds t) {key : κ} (hnew : key ∉ t.keys) (first : α) :
    Holds ⟨s.rows.push (key, first), s.slots.insert key t.keys.length⟩
      (t.update key (·.getD first)) where
  rows := by rw [Array.toList_push, h.rows, rows_update_of_not_mem hnew, Option.getD_none]
  slots other slot := by
    rw [Std.HashMap.getElem?_insert, keys_update, if_neg hnew, List.getElem?_append]
    by_cases hother : key = other
    · -- the old slots are those of other keys
      obtain rfl := hother
      rw [if_pos (beq_self_eq_true key), Option.some.injEq]
      by_cases hlt : slot < t.keys.length
      · rw [if_pos hlt]
        exact ⟨fun heq ↦ absurd hlt (heq ▸ Nat.lt_irrefl _),
          fun hold ↦ absurd (List.mem_of_getElem? hold) hnew⟩
      · rw [if_neg hlt, List.getElem?_singleton]
        split
        · exact ⟨fun _ ↦ rfl, fun _ ↦ by omega⟩
        · exact ⟨fun _ ↦ by omega, nofun⟩
    · rw [if_neg fun heq ↦ hother (eq_of_beq heq), h.slots]
      by_cases hlt : slot < t.keys.length
      · rw [if_pos hlt]
      · rw [if_neg hlt, List.getElem?_eq_none (Nat.not_lt.mp hlt), List.getElem?_singleton]
        split
        · exact ⟨nofun, fun heq ↦ absurd (Option.some.inj heq) hother⟩
        · exact Iff.rfl

/-- A key is given a row when it is used for the first time, and its slot is then the place of the
key. -/
theorem slotOf (h : s.Holds t) (key : κ) (first : α) :
    (s.slotOf key first).2.Holds (t.update key (·.getD first)) ∧
      (t.update key (·.getD first)).keys[(s.slotOf key first).1]? = some key := by
  rw [Indexed.slotOf]
  split
  · rename_i slot hslot
    have hkey := (h.slots key slot).mp hslot
    rw [update_getD_of_mem_keys (List.mem_of_getElem? hkey)]
    exact ⟨h, hkey⟩
  · rename_i hnone
    have hnew : key ∉ t.keys := by
      rw [h.mem_keys_iff, hnone]
      rintro ⟨slot, hslot⟩
      cases hslot
    have hlast : (s.rows.push (key, first)).size - 1 = t.keys.length := by
      rw [Array.size_push, Nat.add_sub_cancel, h.size_eq, length_keys]
    dsimp only
    rw [hlast]
    refine ⟨h.push hnew first, ?_⟩
    rw [keys_update, if_neg hnew]
    exact List.getElem?_concat_length

theorem modify (h : s.Holds t) {key : κ} {slot : Nat} (hslot : t.keys[slot]? = some key)
    (f : Option α → α) :
    { s with rows := s.rows.modify slot fun row ↦ (row.1, f (some row.2)) }.Holds (t.update key f)
    where
  rows := by
    rw [Array.toList_modify, h.rows, rows_update_of_slot hslot]
  slots other slot := by
    rw [keys_update, if_pos (List.mem_of_getElem? hslot)]
    exact h.slots other slot

theorem exists_update (h : s.Holds t) (key : κ) (first : α) (f : α → α) :
    ∃ s', s.update? key first f = some s' ∧ s'.Holds (t.update key fun a ↦ f (a.getD first)) := by
  obtain ⟨hholds, hslot⟩ := h.slotOf key first
  have hlt : (s.slotOf key first).1 < (s.slotOf key first).2.rows.size := by
    rw [hholds.size_eq, ← length_keys]
    exact (List.getElem?_eq_some_iff.mp hslot).1
  refine ⟨_, if_pos hlt, ?_⟩
  -- a row is given its first value before it is changed, which is one update of the table
  have hchanged := hholds.modify hslot fun a ↦ f (a.getD first)
  rwa [update_update] at hchanged

end Holds

end Indexed

/-! ## Keys apart from values -/

/-- Keys in an array, and their values in a hash map. -/
structure Listed (κ α : Type) [BEq κ] [Hashable κ] where
  /-- Keys, the one used first at the head. -/
  order : Array κ
  /-- The value of every key in use. -/
  values : Std.HashMap κ α

namespace Listed

/-- No keys and no values. -/
def empty : Listed κ α := ⟨#[], ∅⟩

/-- Computes the value of a key anew. A key that has none is put behind the last one. -/
def update (s : Listed κ α) (key : κ) (f : Option α → α) : Listed κ α :=
  match s.values[key]? with
  | some a => { s with values := s.values.insert key (f (some a)) }
  | none => ⟨s.order.push key, s.values.insert key (f none)⟩

/-- All keys with their values. There is no result if a key has none. -/
def rows? (s : Listed κ α) : Option (List (κ × α)) :=
  s.order.toList.mapM fun key ↦ s.values[key]?.map fun a ↦ (key, a)

/-- The keys are those of the table, and so are the values. -/
structure Holds (s : Listed κ α) (t : Table κ α) : Prop where
  /-- The array has the keys in their order. -/
  order : s.order.toList = t.keys
  /-- Keys in use have their values, others have none. -/
  values : ∀ key : κ, s.values[key]? = t.get? key

theorem holds_empty : (empty : Listed κ α).Holds .empty where
  order := rfl
  values _ := Std.HashMap.getElem?_empty

namespace Holds

variable [LawfulBEq κ] {s : Listed κ α} {t : Table κ α}

theorem update (h : s.Holds t) (key : κ) (f : Option α → α) :
    (s.update key f).Holds (t.update key f) := by
  have hvalues : ∀ a other, t.get? key = a →
      (s.values.insert key (f a))[other]? = (t.update key f).get? other := by
    rintro a other rfl
    rw [Std.HashMap.getElem?_insert, get?_update, h.values, BEq.comm]
  rw [Listed.update, h.values]
  cases hget : t.get? key with
  | some a =>
    refine ⟨?_, fun other ↦ hvalues (some a) other hget⟩
    rw [keys_update, if_pos (mem_keys_of_get? hget), h.order]
  | none =>
    refine ⟨?_, fun other ↦ hvalues none other hget⟩
    rw [keys_update, if_neg (get?_eq_none.mp hget), Array.toList_push, h.order]

theorem rows?_eq (h : s.Holds t) : s.rows? = some t.rows := by
  have hlookups : ∀ rows : List (κ × α), (∀ row ∈ rows, s.values[row.1]? = some row.2) →
      ((rows.map (·.1)).mapM fun key ↦ s.values[key]?.map fun a ↦ (key, a)) = some rows := by
    intro rows
    induction rows with
    | nil => exact fun _ ↦ rfl
    | cons row rest ih =>
      intro hfound
      rw [List.map_cons, List.mapM_cons, hfound row List.mem_cons_self,
        ih fun other hother ↦ hfound other (List.mem_cons_of_mem row hother)]
      rfl
  rw [rows?, h.order]
  exact hlookups t.rows fun row hrow ↦ (h.values row.1).trans (get?_eq_some.mpr hrow)

end Holds

end Listed

/-! ## Runs -/

/-- Steps that have a result and keep two states in step do so over a whole run. -/
theorem exists_foldlM_of_step {σ τ ε : Type} {R : σ → τ → Prop} {step? : σ → ε → Option σ}
    {step : τ → ε → τ}
    (hstep : ∀ s t event, R s t → ∃ s', step? s event = some s' ∧ R s' (step t event))
    (events : List ε) {s : σ} {t : τ} (h : R s t) :
    ∃ s', events.foldlM step? s = some s' ∧ R s' (events.foldl step t) := by
  induction events generalizing s t with
  | nil => exact ⟨s, rfl, h⟩
  | cons event rest ih =>
    obtain ⟨s', hsome, hkept⟩ := hstep s t event h
    obtain ⟨last, hlast, hend⟩ := ih hkept
    exact ⟨last, by rw [List.foldlM_cons, hsome]; exact hlast, hend⟩

end BookmarkGraph.Table
