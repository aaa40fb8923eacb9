import BookmarkGraph.Element.Value

/-!
# Property maps

A property map holds at most one value per key and lists its keys in ascending order of their code
points. The order is part of the type, so equal maps have equal entries and the text of a map does
not depend on how it was filled.

## Contents

* `Properties`: entries with strictly ascending keys;
* `Properties.get?`, `Properties.insert`, `Properties.ofList`;
* `Properties.get?_insert`: what a key reads after an insertion.
-/

namespace BookmarkGraph

/-- A map from keys to values with its keys in ascending order. -/
structure Properties where
  /-- Keys and their values. -/
  entries : List (String × Value)
  /-- Every key is smaller than the keys after it. -/
  ascending : entries.Pairwise fun a b ↦ a.1 < b.1 := by simp
deriving Repr

namespace Properties

instance : DecidableEq Properties := fun a b ↦
  if h : a.entries = b.entries then
    isTrue (by cases a; cases b; simp_all)
  else isFalse fun e ↦ h (e ▸ rfl)

def empty : Properties where
  entries := []

instance : Inhabited Properties := ⟨empty⟩

def get? (props : Properties) (key : String) : Option Value := props.entries.lookup key

/-! ## Insertion -/

/-- Puts a value in its place among ascending entries, replacing the one under the same key. -/
def place (key : String) (value : Value) : List (String × Value) → List (String × Value)
  | [] => [(key, value)]
  | (k, v) :: rest =>
    if key < k then (key, value) :: (k, v) :: rest
    else if key = k then (key, value) :: rest
    else (k, v) :: place key value rest

theorem lt_of_not_lt_of_ne {a b : String} (h : ¬a < b) (hne : a ≠ b) : b < a := by
  rcases String.le_total a b with hab | hba
  · exact absurd (String.le_antisymm hab (String.not_lt.mp h)) hne
  · exact String.not_le.mp fun hab ↦ hne (String.le_antisymm hab hba)

theorem mem_place {key : String} {value : Value} {entries : List (String × Value)}
    {entry : String × Value} (h : entry ∈ place key value entries) :
    entry = (key, value) ∨ entry ∈ entries := by
  induction entries with
  | nil => simpa [place] using h
  | cons head rest ih =>
    obtain ⟨k, v⟩ := head
    simp only [place] at h
    split at h
    · simpa using h
    · split at h
      · rcases List.mem_cons.mp h with h | h
        · exact .inl h
        · exact .inr (List.mem_cons_of_mem _ h)
      · rcases List.mem_cons.mp h with h | h
        · exact .inr (h ▸ List.mem_cons_self)
        · exact (ih h).imp_right (List.mem_cons_of_mem _)

theorem pairwise_place {key : String} {value : Value} {entries : List (String × Value)}
    (h : entries.Pairwise fun a b ↦ a.1 < b.1) :
    (place key value entries).Pairwise fun a b ↦ a.1 < b.1 := by
  induction entries with
  | nil => simp [place]
  | cons head rest ih =>
    obtain ⟨k, v⟩ := head
    have hrest := List.pairwise_cons.mp h
    simp only [place]
    split
    · rename_i hlt
      refine List.pairwise_cons.mpr ⟨fun entry hmem ↦ ?_, h⟩
      rcases List.mem_cons.mp hmem with rfl | hmem
      · exact hlt
      · exact String.lt_trans hlt (hrest.1 entry hmem)
    · rename_i hnlt
      split
      · rename_i heq
        subst heq
        exact List.pairwise_cons.mpr ⟨hrest.1, hrest.2⟩
      · rename_i hne
        refine List.pairwise_cons.mpr ⟨fun entry hmem ↦ ?_, ih hrest.2⟩
        rcases mem_place hmem with rfl | hmem
        · exact lt_of_not_lt_of_ne hnlt hne
        · exact hrest.1 entry hmem

/-- Puts a value under a key, replacing the one there. -/
def insert (props : Properties) (key : String) (value : Value) : Properties where
  entries := place key value props.entries
  ascending := pairwise_place props.ascending

/-- Fills a map entry by entry, so that the last value of a repeated key stays. -/
def ofList (entries : List (String × Value)) : Properties :=
  entries.foldl (fun props entry ↦ props.insert entry.1 entry.2) empty

/-! ## Reading after an insertion -/

private theorem lookup_cons_eq_ite (key other : String) (value : Value)
    (rest : List (String × Value)) :
    ((key, value) :: rest).lookup other =
      if other = key then some value else rest.lookup other := by
  rw [List.lookup_cons]
  split
  · rename_i h
    rw [if_pos (beq_iff_eq.mp h)]
  · rename_i h
    rw [if_neg (beq_eq_false_iff_ne.mp h)]

theorem lookup_place (key other : String) (value : Value) (entries : List (String × Value)) :
    (place key value entries).lookup other
      = if other = key then some value else entries.lookup other := by
  induction entries with
  | nil => rw [place, lookup_cons_eq_ite]
  | cons head rest ih =>
    obtain ⟨k, v⟩ := head
    simp only [place]
    split
    · rw [lookup_cons_eq_ite]
    · split
      · rename_i heq
        subst heq
        rw [lookup_cons_eq_ite, lookup_cons_eq_ite]
        split <;> rfl
      · rename_i hne
        rw [lookup_cons_eq_ite, lookup_cons_eq_ite, ih]
        by_cases h : other = k
        · rw [if_pos h, if_pos h, if_neg fun e ↦ hne (e.symm.trans h)]
        · rw [if_neg h, if_neg h]

/-- A key reads the value inserted last; the other keys are untouched. -/
theorem get?_insert (props : Properties) (key other : String) (value : Value) :
    (props.insert key value).get? other = if other = key then some value else props.get? other :=
  lookup_place key other value props.entries

end Properties

end BookmarkGraph
