/-!
# Tables in the order of first use

A table holds at most one value per key and lists its keys in the order in which they were first
used. A later use changes the value in its place. That no key occurs twice is part of the type.

## Contents

* `Table`, `Table.get?`, `Table.keys`;
* `Table.update`: the one mutation;
* `Table.keys_update`, `Table.get?_update`: keys and values after an update.
-/

namespace BookmarkGraph

/-- A map that lists its keys in the order of their first use. -/
structure Table (κ α : Type) where
  /-- Keys and their values, the key used first at the head. -/
  rows : List (κ × α)
  /-- No key occurs twice. -/
  distinct : (rows.map (·.1)).Nodup := by simp
deriving Repr

namespace Table

variable {κ α : Type}

instance [DecidableEq κ] [DecidableEq α] : DecidableEq (Table κ α) := fun a b ↦
  if h : a.rows = b.rows then
    isTrue (by cases a; cases b; simp_all)
  else isFalse fun e ↦ h (e ▸ rfl)

def empty : Table κ α where
  rows := []

instance : Inhabited (Table κ α) := ⟨empty⟩

def keys (t : Table κ α) : List κ := t.rows.map (·.1)

def size (t : Table κ α) : Nat := t.rows.length

/-- Whether no key is in use. -/
def isEmpty (t : Table κ α) : Bool := t.rows.isEmpty

theorem nodup_keys (t : Table κ α) : t.keys.Nodup := t.distinct

theorem length_keys (t : Table κ α) : t.keys.length = t.size := by simp [keys, size]

variable [BEq κ] [LawfulBEq κ]

def get? (t : Table κ α) (key : κ) : Option α := t.rows.lookup key

def contains (t : Table κ α) (key : κ) : Bool := (t.get? key).isSome

/-! ## Updates -/

/-- Changes the row of a key in its place, or appends one if there is none. -/
def updateRows (key : κ) (f : Option α → α) : List (κ × α) → List (κ × α)
  | [] => [(key, f none)]
  | (k, a) :: rest =>
    if k == key then (k, f (some a)) :: rest else (k, a) :: updateRows key f rest

theorem keys_updateRows (key : κ) (f : Option α → α) (rows : List (κ × α)) :
    (updateRows key f rows).map (·.1)
      = if key ∈ rows.map (·.1) then rows.map (·.1) else rows.map (·.1) ++ [key] := by
  induction rows with
  | nil => simp [updateRows]
  | cons row rest ih =>
    obtain ⟨k, a⟩ := row
    by_cases h : k = key
    · simp [updateRows, h]
    · have h' : ¬key = k := fun e ↦ h e.symm
      by_cases hmem : key ∈ rest.map (·.1)
      · rw [if_pos hmem] at ih
        simp only [updateRows, beq_iff_eq, h, if_false, List.map_cons, ih, List.mem_cons, hmem,
          or_true, if_true]
      · rw [if_neg hmem] at ih
        simp only [updateRows, beq_iff_eq, h, if_false, List.map_cons, ih, List.mem_cons, hmem,
          h', or_false, List.cons_append]

theorem nodup_updateRows (key : κ) (f : Option α → α) {rows : List (κ × α)}
    (h : (rows.map (·.1)).Nodup) : ((updateRows key f rows).map (·.1)).Nodup := by
  rw [keys_updateRows]
  split
  · exact h
  · rename_i hmem
    refine List.nodup_append.mpr ⟨h, by simp, fun a ha b hb ↦ ?_⟩
    rw [List.mem_singleton.mp hb]
    exact fun e ↦ hmem (e ▸ ha)

private theorem lookup_cons_ite (k other : κ) (a : α) (rest : List (κ × α)) :
    ((k, a) :: rest).lookup other = if other == k then some a else rest.lookup other := by
  rw [List.lookup_cons]
  split <;> simp_all

theorem lookup_updateRows (key other : κ) (f : Option α → α) (rows : List (κ × α)) :
    (updateRows key f rows).lookup other
      = if other == key then some (f (rows.lookup key)) else rows.lookup other := by
  induction rows with
  | nil => rw [updateRows, lookup_cons_ite, List.lookup_nil, List.lookup_nil]
  | cons row rest ih =>
    obtain ⟨k, a⟩ := row
    by_cases h : k = key
    · subst h
      simp only [updateRows, beq_self_eq_true, if_true, lookup_cons_ite]
      split <;> rfl
    · have h' : ¬key = k := fun e ↦ h e.symm
      simp only [updateRows, beq_iff_eq, h, h', if_false, lookup_cons_ite, ih]
      by_cases ho : other = k
      · simp [ho, h]
      · simp [ho]

/-- Computes the value of a key anew from the value there, if there is one. A key used for the
first time goes to the end. -/
def update (t : Table κ α) (key : κ) (f : Option α → α) : Table κ α where
  rows := updateRows key f t.rows
  distinct := nodup_updateRows key f t.distinct

/-- An update keeps all keys in their places and appends a new one. -/
theorem keys_update (t : Table κ α) (key : κ) (f : Option α → α) :
    (t.update key f).keys = if key ∈ t.keys then t.keys else t.keys ++ [key] :=
  keys_updateRows key f t.rows

/-- An update changes the value of its key alone. -/
theorem get?_update (t : Table κ α) (key other : κ) (f : Option α → α) :
    (t.update key f).get? other
      = if other == key then some (f (t.get? key)) else t.get? other :=
  lookup_updateRows key other f t.rows

end Table

end BookmarkGraph
