import BookmarkGraph.Proofs.Repetitions
import BookmarkGraph.Table

/-!
# What updates leave in a table

A table is known by its keys, in their order, and the value under each of them. After any history of
updates both can be read off the history: the keys are those that were updated, in the order of
first use, and the value under a key is what the updates of that key make of it, one after the
other. Updates of other keys do not show.
-/

namespace BookmarkGraph.Table

variable {κ α : Type} [BEq κ] [LawfulBEq κ]

/-! ## Keys and values -/

theorem get?_eq_some {t : Table κ α} {key : κ} {a : α} :
    t.get? key = some a ↔ (key, a) ∈ t.rows := by
  obtain ⟨rows, hdistinct⟩ := t
  change rows.lookup key = some a ↔ (key, a) ∈ rows
  induction rows with
  | nil => simp
  | cons row rest ih =>
    obtain ⟨k, b⟩ := row
    obtain ⟨hnew, hrest⟩ := List.nodup_cons.mp hdistinct
    rw [List.lookup_cons, List.mem_cons, Prod.mk.injEq]
    by_cases h : key = k
    · subst h
      rw [beq_self_eq_true]
      constructor
      · intro hb
        exact .inl ⟨rfl, (Option.some.inj hb).symm⟩
      · rintro (⟨-, rfl⟩ | hmem)
        · rfl
        · exact absurd (List.mem_map_of_mem (f := (·.1)) hmem) hnew
    · rw [beq_eq_false_iff_ne.mpr h]
      change rest.lookup key = some a ↔ _
      rw [ih hrest]
      simp [h]

theorem exists_get?_of_mem_keys {t : Table κ α} {key : κ} (h : key ∈ t.keys) :
    ∃ a, t.get? key = some a := by
  obtain ⟨row, hrow, rfl⟩ := List.mem_map.mp h
  exact ⟨row.2, get?_eq_some.mpr hrow⟩

theorem mem_keys_of_get? {t : Table κ α} {key : κ} {a : α} (h : t.get? key = some a) :
    key ∈ t.keys :=
  List.mem_map_of_mem (get?_eq_some.mp h)

theorem get?_eq_none {t : Table κ α} {key : κ} : t.get? key = none ↔ key ∉ t.keys := by
  constructor
  · intro hnone hkey
    obtain ⟨a, ha⟩ := exists_get?_of_mem_keys hkey
    rw [hnone] at ha
    cases ha
  · exact fun hkey ↦ Option.eq_none_iff_forall_ne_some.mpr fun a ha ↦ hkey (mem_keys_of_get? ha)

theorem contains_eq_true {t : Table κ α} {key : κ} : t.contains key = true ↔ key ∈ t.keys := by
  rw [contains, Option.isSome_iff_ne_none, ne_eq, get?_eq_none, not_not]

theorem contains_eq_false {t : Table κ α} {key : κ} : t.contains key = false ↔ key ∉ t.keys := by
  rw [← contains_eq_true, Bool.not_eq_true]

/-- A table is known by its keys, in their order, and the values under them. -/
theorem ext_get? {t u : Table κ α} (hkeys : t.keys = u.keys)
    (hvalues : ∀ key ∈ t.keys, t.get? key = u.get? key) : t = u := by
  have hlength : t.rows.length = u.rows.length := by
    have hsize := congrArg List.length hkeys
    rwa [length_keys, length_keys] at hsize
  have hrows : t.rows = u.rows := by
    refine List.ext_getElem hlength fun i hi hi' ↦ ?_
    have hkey : t.rows[i].1 = u.rows[i].1 := by
      have hat : t.keys[i]? = u.keys[i]? := by rw [hkeys]
      rw [keys, keys, List.getElem?_map, List.getElem?_map, List.getElem?_eq_getElem hi,
        List.getElem?_eq_getElem hi'] at hat
      exact Option.some.inj hat
    have hfirst : t.get? t.rows[i].1 = some t.rows[i].2 := get?_eq_some.mpr (List.getElem_mem hi)
    have hsecond : u.get? u.rows[i].1 = some u.rows[i].2 := get?_eq_some.mpr (List.getElem_mem hi')
    have hmem : t.rows[i].1 ∈ t.keys := List.mem_map_of_mem (List.getElem_mem hi)
    rw [hvalues _ hmem, hkey, hsecond] at hfirst
    exact Prod.ext hkey (Option.some.inj hfirst).symm
  cases t
  cases u
  cases hrows
  rfl

theorem rows_eq_map {t : Table κ α} {value : κ → α}
    (h : ∀ key ∈ t.keys, t.get? key = some (value key)) :
    t.rows = t.keys.map fun key ↦ (key, value key) := by
  rw [keys, List.map_map]
  refine (List.map_id t.rows).symm.trans (List.map_congr_left fun row hrow ↦ ?_)
  have hget : t.get? row.1 = some row.2 := get?_eq_some.mpr hrow
  rw [h row.1 (List.mem_map_of_mem hrow)] at hget
  exact Prod.ext rfl (Option.some.inj hget).symm

theorem rows_update_of_not_mem {t : Table κ α} {key : κ} (h : key ∉ t.keys) (f : Option α → α) :
    (t.update key f).rows = t.rows ++ [(key, f none)] := by
  obtain ⟨rows, hdistinct⟩ := t
  change key ∉ rows.map (·.1) at h
  change updateRows key f rows = rows ++ [(key, f none)]
  clear hdistinct
  induction rows with
  | nil => rfl
  | cons row rest ih =>
    rw [List.map_cons, List.mem_cons, not_or] at h
    rw [updateRows, if_neg fun heq ↦ h.1 (eq_of_beq heq).symm, ih h.2, List.cons_append]

theorem size_update_of_not_mem {t : Table κ α} {key : κ} (h : key ∉ t.keys) (f : Option α → α) :
    (t.update key f).size = t.size + 1 := by
  rw [size, rows_update_of_not_mem h, List.length_append, List.length_singleton, ← size]

theorem rows_update_of_slot {t : Table κ α} {key : κ} {slot : Nat} (h : t.keys[slot]? = some key)
    (f : Option α → α) :
    (t.update key f).rows = t.rows.modify slot fun row ↦ (row.1, f (some row.2)) := by
  obtain ⟨rows, hdistinct⟩ := t
  change (rows.map (·.1))[slot]? = some key at h
  change updateRows key f rows = rows.modify slot fun row ↦ (row.1, f (some row.2))
  induction rows generalizing slot with
  | nil => exact absurd h (by simp)
  | cons row rest ih =>
    obtain ⟨hnew, hrest⟩ := List.nodup_cons.mp hdistinct
    rw [List.map_cons] at h
    cases slot with
    | zero =>
      obtain rfl := Option.some.inj h
      rw [updateRows, if_pos (beq_self_eq_true _), List.modify_zero_cons]
    | succ slot =>
      rw [List.getElem?_cons_succ] at h
      have hmem : key ∈ rest.map (·.1) := List.mem_of_getElem? h
      have hne : ¬row.1 == key := by
        intro heq
        obtain rfl := eq_of_beq heq
        exact hnew hmem
      rw [updateRows, if_neg hne, ih hrest h, List.modify_succ_cons]

theorem update_update (t : Table κ α) (key : κ) (f g : Option α → α) :
    (t.update key f).update key g = t.update key fun a ↦ g (some (f a)) := by
  have hkey : key ∈ (t.update key f).keys := by
    rw [keys_update]
    split
    · assumption
    · exact List.mem_append_right _ List.mem_cons_self
  refine ext_get? ?_ fun other _ ↦ ?_
  · rw [keys_update, if_pos hkey, keys_update, keys_update]
  · rw [get?_update, get?_update, get?_update, get?_update, if_pos (beq_self_eq_true key)]
    split <;> rfl

/-- A value that is put under keys that have none changes nothing under a key in use. -/
theorem update_getD_of_mem_keys {t : Table κ α} {key : κ} (h : key ∈ t.keys) (first : α) :
    (t.update key (·.getD first)) = t := by
  refine ext_get? (by rw [keys_update, if_pos h]) fun other _ ↦ ?_
  obtain ⟨a, ha⟩ := exists_get?_of_mem_keys h
  rw [get?_update, ha, Option.getD_some]
  split
  · rename_i heq
    rw [eq_of_beq heq, ha]
  · rfl

/-! ## Histories -/

section Histories

variable {ε : Type} (key : ε → κ) (change : ε → Option α → α)

/-- The table that events leave, each of which computes the value under its key anew. -/
def ofEvents (events : List ε) : Table κ α :=
  events.foldl (fun t event ↦ t.update (key event) (change event)) .empty

theorem ofEvents_append_singleton (events : List ε) (event : ε) :
    ofEvents key change (events ++ [event])
      = (ofEvents key change events).update (key event) (change event) := by
  rw [ofEvents, List.foldl_append]
  rfl

theorem keys_ofEvents (events : List ε) :
    (ofEvents key change events).keys = (events.map key).eraseDups := by
  induction events using List.reverseRecOn with
  | nil => rfl
  | append_singleton events event ih =>
    rw [ofEvents_append_singleton, keys_update, ih, List.map_append, List.map_singleton,
      eraseDups_append_singleton]
    simp only [List.mem_eraseDups]

/-- The value under a key is what the events of this key make of it, one after the other. -/
theorem get?_ofEvents (events : List ε) (k : κ) :
    (ofEvents key change events).get? k
      = (events.filter fun event ↦ key event == k).foldl (fun a event ↦ some (change event a))
          none := by
  induction events using List.reverseRecOn with
  | nil => rfl
  | append_singleton events event ih =>
    rw [ofEvents_append_singleton, get?_update, List.filter_append, List.foldl_append, ← ih]
    by_cases h : k = key event
    · obtain rfl := h
      have hown : [event].filter (fun e ↦ key e == key event) = [event] :=
        List.filter_cons_of_pos (beq_self_eq_true (key event))
      rw [if_pos (beq_self_eq_true _), hown]
      rfl
    · have hother : [event].filter (fun e ↦ key e == k) = [] :=
        List.filter_cons_of_neg fun heq ↦ h (eq_of_beq heq).symm
      rw [if_neg fun heq ↦ h (eq_of_beq heq), hother]
      rfl

/-- Where the changes of a key begin with a first value, the key has what its own events make of
that value. -/
theorem get?_ofEvents_getD (change : ε → α → α) (first : α) (events : List ε) (k : κ) :
    (ofEvents key (fun event a ↦ change event (a.getD first)) events).get? k
      = if k ∈ events.map key then
          some ((events.filter fun event ↦ key event == k).foldl (fun a event ↦ change event a)
            first)
        else none := by
  rw [get?_ofEvents]
  split
  · rename_i hused
    obtain ⟨event, hevent, hkey⟩ := List.mem_map.mp hused
    have hown : event ∈ events.filter fun event ↦ key event == k :=
      List.mem_filter.mpr ⟨hevent, beq_iff_eq.mpr hkey⟩
    obtain ⟨start, rest, heq⟩ := List.exists_cons_of_ne_nil (List.ne_nil_of_mem hown)
    rw [heq, List.foldl_cons, List.foldl_cons, Option.getD_none]
    exact List.foldl_hom some fun _ _ ↦ rfl
  · rename_i hunused
    have hown : (events.filter fun event ↦ key event == k) = [] :=
      List.filter_eq_nil_iff.mpr fun event hevent hkey ↦
        hunused (List.mem_map.mpr ⟨event, hevent, eq_of_beq hkey⟩)
    rw [hown]
    rfl

end Histories

end BookmarkGraph.Table
