import BookmarkGraph.Proofs.Table.Indexed
import BookmarkGraph.Recommend.Scores
import Mathlib.Data.List.DropRight

/-!
# The tables of profiles under use

Strategies take the table of a profile out, change it and put it back, as often as they like and in
any order, and a session clears all tables before it starts over. What is left is decided by the
entries since the tables were cleared last: the profiles of these entries have tables, in the order
in which they were first met, and a table is what the entries of its own profile made of an empty
one.

The same holds of rows in an array with an index of slots. Every slot stays in range, so no access
fails, before or after the tables are cleared.
-/

namespace BookmarkGraph.ProfileScores

/-! ## Histories of accesses -/

/-- The table of a profile is taken out, an empty one if there is none, and what is made of it is
put in its place. -/
structure Entry where
  /-- The profile. -/
  profile : ElementId
  /-- What is made of its table. -/
  change : ScoreTable → ScoreTable

/-- An access that changes the tables. -/
inductive Access where
  /-- Change the table of a profile. -/
  | entry (entry : Entry)
  /-- Forget all tables. -/
  | clear

def Access.toOption : Access → Option Entry
  | entry e => some e
  | clear => none

def access (scores : ProfileScores) : Access → ProfileScores
  | .entry e => scores.entry e.profile e.change
  | .clear => .empty

def accessed (history : List Access) : ProfileScores := history.foldl access .empty

/-- The entries since the tables were cleared last, or since the start. -/
def entries (history : List Access) : List Entry :=
  (history.rtakeWhile (·.toOption.isSome)).filterMap (·.toOption)

/-- The profiles of the entries since the tables were cleared last. -/
def touched (history : List Access) : List ElementId := (entries history).map (·.profile)

/-- What the entries of a profile since the tables were cleared last make of an empty table, one
after the other. -/
def made (history : List Access) (profile : ElementId) : ScoreTable :=
  ((entries history).filter (·.profile = profile)).foldl (fun table e ↦ e.change table) .empty

theorem entries_append_entry (history : List Access) (e : Entry) :
    entries (history ++ [.entry e]) = entries history ++ [e] := by
  rw [entries, List.rtakeWhile_concat_pos _ _ _ rfl, List.filterMap_append]
  rfl

theorem entries_append_clear (history : List Access) : entries (history ++ [.clear]) = [] := by
  rw [entries, List.rtakeWhile_concat_neg _ _ _ Bool.false_ne_true]
  rfl

/-- Accesses up to the last time that the tables were cleared do not show. -/
theorem accessed_eq (history : List Access) :
    accessed history
      = Table.ofEvents Entry.profile (fun e table ↦ e.change (table.getD .empty))
          (entries history) := by
  induction history using List.reverseRecOn with
  | nil => rfl
  | append_singleton history last ih =>
    rw [accessed, List.foldl_append, List.foldl_cons, List.foldl_nil, ← accessed]
    cases last with
    | entry e =>
      rw [entries_append_entry, Table.ofEvents_append_singleton, ← ih]
      rfl
    | clear =>
      -- the entries are forgotten along with the tables
      rw [entries_append_clear]
      rfl

theorem keys_accessed (history : List Access) :
    (accessed history).keys = (touched history).eraseDups := by
  rw [accessed_eq, Table.keys_ofEvents, touched]

theorem get?_accessed (history : List Access) (profile : ElementId) :
    (accessed history).get? profile
      = if profile ∈ touched history then some (made history profile) else none := by
  rw [accessed_eq, Table.get?_ofEvents_getD Entry.profile Entry.change]
  rfl

/-! ## Tables in slots -/

/-- Carries out an access where the tables are rows of an array. There is no result if a slot has
no row. -/
def access? (scores : Table.Indexed ElementId ScoreTable) :
    Access → Option (Table.Indexed ElementId ScoreTable)
  | .entry e => scores.update? e.profile .empty e.change
  | .clear => some .empty

/-- Every access has a result. -/
theorem exists_access (history : List Access) :
    ∃ slots, history.foldlM access? .empty = some slots ∧ slots.Holds (accessed history) := by
  refine Table.exists_foldlM_of_step (fun slots scores next h ↦ ?_) history
    Table.Indexed.holds_empty
  cases next with
  | entry e => exact h.exists_update e.profile .empty e.change
  | clear => exact ⟨.empty, rfl, Table.Indexed.holds_empty⟩

/-- **One table for each profile in use.** Whatever entries there were, and however often the tables
were cleared, there is one row for each profile that was touched since they were cleared last, in
the order in which these profiles were first touched, with the table that the profile's own entries
made. That table is also what is found under the profile, and under other profiles nothing is found.
In an array with an index of slots no access fails, every slot has the row of its profile, and rows
and reads are the same. -/
theorem tables_since_clear (history : List Access) :
    (accessed history).rows
        = (touched history).eraseDups.map (fun profile ↦ (profile, made history profile)) ∧
      (∀ profile, (accessed history).get? profile
        = if profile ∈ touched history then some (made history profile) else none) ∧
      (accessed history).size = (touched history).eraseDups.length ∧
      ∃ slots, history.foldlM access? .empty = some slots ∧
        (∀ (profile : ElementId) (slot : Nat), slots.slots[profile]? = some slot →
          ∃ table, slots.rows[slot]? = some (profile, table)) ∧
        slots.rows.toList = (accessed history).rows ∧
        slots.rows.size = (accessed history).size ∧
        ∀ profile, slots.read? profile = some ((accessed history).get? profile) := by
  have hget := get?_accessed history
  obtain ⟨slots, hsome, hholds⟩ := exists_access history
  refine ⟨?_, hget, ?_, slots, hsome, fun _ _ ↦ hholds.exists_row, hholds.rows, hholds.size_eq,
    hholds.read?_eq⟩
  · rw [← keys_accessed]
    refine Table.rows_eq_map fun profile hprofile ↦ ?_
    rw [keys_accessed, List.mem_eraseDups] at hprofile
    rw [hget, if_pos hprofile]
  · rw [← Table.length_keys, keys_accessed]

/-- The tables are cleared between two uses of the same profiles, which come in the other order the
second time. -/
def reused : List Access :=
  [.entry ⟨.number 1, fun table ↦ table.add (.number 7) .one true⟩, .entry ⟨.number 3, id⟩,
    .entry ⟨.number 2, fun table ↦ table.add (.number 7) .one true⟩, .clear,
    .entry ⟨.number 2, fun table ↦ table.add (.number 8) .one true⟩,
    .entry ⟨.number 1, fun _ ↦ .empty⟩,
    .entry ⟨.number 2, fun table ↦ table.add (.number 8) .one true⟩]

/-- The tables of the second use are all that is left. -/
theorem tables_since_clear_reused :
    (accessed reused).rows = [(.number 2, ⟨[(.number 8, .ofNat 2)], by simp⟩), (.number 1, .empty)] ∧
      (accessed reused).get? (.number 3) = none ∧
      (accessed reused).size = 2 ∧
      ∃ slots, reused.foldlM access? .empty = some slots ∧ slots.rows.size = 2 ∧
        slots.read? (.number 1) = some (some .empty) ∧ slots.read? (.number 3) = some none := by
  obtain ⟨hrows, hget, hsize, slots, hsome, -, -, hcount, hread⟩ := tables_since_clear reused
  have htwo : (accessed reused).size = 2 := hsize.trans (by decide)
  have hempty : (accessed reused).get? (.number 1) = some .empty := (hget _).trans (by decide)
  have hnone : (accessed reused).get? (.number 3) = none := (hget _).trans (by decide)
  refine ⟨hrows.trans (by decide +kernel), hnone, htwo, slots, hsome, hcount.trans htwo, ?_, ?_⟩
  · rw [hread, hempty]
  · rw [hread, hnone]

end BookmarkGraph.ProfileScores
