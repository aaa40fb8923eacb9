import BookmarkGraph.Proofs.Recommend.Reruns
import BookmarkGraph.Proofs.Table.Indexed
import Mathlib.Data.List.DropRight

/-!
# What a store tells after any writes

What a store tells about a profile depends on the writes of this profile alone, and of these on the
ones since it was cleared last: they are the listings inserted since then. Clearing empties the row
of a profile and leaves it where it is, so the contents of the store keep the order in which
profiles were first written, by a clearing or an insertion, whatever happens to them later.

A row is made by whichever of the two writes comes first. In an array with an index of slots every
write finds the row that it is about, as `InSlots.exists_written` shows.
-/

namespace BookmarkGraph

/-! ## Histories of writes -/

namespace Write

/-- The listing that is inserted for a profile, if the write does that. -/
def entryFor? (profile : ElementId) : Write → Option ScoredListing
  | clear _ => none
  | insert other entry => if other = profile then some entry else none

def isClear : Write → Bool
  | clear _ => true
  | insert _ _ => false

end Write

namespace Store

def written (history : List Write) : Store := history.foldl apply .empty

/-- The listings inserted for a profile since it was cleared last, or since the start. -/
def inserted (history : List Write) (profile : ElementId) : List ScoredListing :=
  (history.rtakeWhile (· ≠ .clear profile)).filterMap (Write.entryFor? profile)

variable (history : List Write)

theorem written_append_singleton (w : Write) :
    written (history ++ [w]) = (written history).apply w := by
  rw [written, List.foldl_append]
  rfl

theorem inserted_append_clear (profile other : ElementId) :
    inserted (history ++ [.clear profile]) other
      = if other = profile then [] else inserted history other := by
  by_cases heq : other = profile
  · rw [if_pos heq, inserted, List.rtakeWhile_concat_neg]
    · rfl
    · simp [heq]
  · rw [if_neg heq, inserted, List.rtakeWhile_concat_pos, List.filterMap_append]
    · exact List.append_nil _
    · simp [Ne.symm heq]

theorem inserted_append_insert (profile other : ElementId) (entry : ScoredListing) :
    inserted (history ++ [.insert profile entry]) other
      = if other = profile then inserted history other ++ [entry] else inserted history other := by
  rw [inserted, List.rtakeWhile_concat_pos _ _ _ rfl, List.filterMap_append, ← inserted,
    List.filterMap_cons, Write.entryFor?]
  by_cases heq : other = profile
  · rw [if_pos heq.symm, if_pos heq]
    rfl
  · rw [if_neg (Ne.symm heq), if_neg heq]
    exact List.append_nil _

/-- A profile has what was inserted for it since it was cleared last. -/
theorem recommendationsFor_written (profile : ElementId) :
    (written history).recommendationsFor profile = inserted history profile := by
  induction history using List.reverseRecOn with
  | nil => rfl
  | append_singleton history last ih =>
    rw [written_append_singleton]
    cases last with
    | clear other => rw [apply, recommendationsFor_deleteAll, inserted_append_clear, ih]
    | insert other entry => rw [apply, recommendationsFor_insert, inserted_append_insert, ih]

theorem inserted_of_not_mem {profile : ElementId} (h : profile ∉ history.map (·.profile)) :
    inserted history profile = [] := by
  refine List.filterMap_eq_nil_iff.mpr fun w hw ↦ ?_
  cases w with
  | clear other => rfl
  | insert other entry =>
    refine if_neg fun heq ↦ h ?_
    exact List.mem_map.mpr ⟨_, (List.rtakeWhile_suffix _ _).subset hw, heq⟩

theorem keys_written : (written history).rows.keys = (history.map (·.profile)).eraseDups := by
  induction history using List.reverseRecOn with
  | nil => rfl
  | append_singleton history last ih =>
    rw [written_append_singleton, keys_apply, ih, List.map_append, List.map_singleton,
      eraseDups_append_singleton]
    simp only [List.mem_eraseDups]

theorem contents_written :
    (written history).contents
      = ((history.map (·.profile)).eraseDups.filter fun profile ↦
          inserted history profile ≠ []).map fun profile ↦ ⟨profile, inserted history profile⟩ := by
  have hrows : (written history).rows.rows
      = (written history).rows.keys.map fun profile ↦ (profile, inserted history profile) := by
    refine Table.rows_eq_map fun profile hprofile ↦ ?_
    rw [get?_rows_of_mem_keys hprofile, recommendationsFor_written]
  rw [contents, hrows, keys_written, List.filter_map, List.map_map]
  refine congrArg _ (List.filter_congr fun profile _ ↦ ?_)
  rw [Function.comp_apply]
  cases inserted history profile with
  | nil => rfl
  | cons entry rest => rfl

theorem recommendationsFor_apply_of_ne (s : Store) {w : Write} {profile : ElementId}
    (h : profile ≠ w.profile) :
    (s.apply w).recommendationsFor profile = s.recommendationsFor profile := by
  cases w with
  | clear other => exact (recommendationsFor_deleteAll ..).trans (if_neg h)
  | insert other entry => exact (recommendationsFor_insert ..).trans (if_neg h)

theorem counts_written :
    (written history).deletes = history.countP (·.isClear) ∧
      (written history).inserts = history.countP (!·.isClear) := by
  induction history using List.reverseRecOn with
  | nil => exact ⟨rfl, rfl⟩
  | append_singleton history last ih =>
    rw [written_append_singleton, List.countP_append, List.countP_append, ← ih.1, ← ih.2]
    cases last with
    | clear profile => exact ⟨rfl, rfl⟩
    | insert profile entry => exact ⟨rfl, rfl⟩

theorem writes_written : (written history).writes = history.length := by
  rw [writes, (counts_written history).1, (counts_written history).2,
    List.length_eq_countP_add_countP (·.isClear)]
  simp only [Bool.not_eq_true, Bool.decide_eq_false]

/-! ## The store in slots -/

/-- A store whose rows are in an array with an index of slots. -/
structure InSlots where
  /-- Listings by profile, the profile written first at the head. -/
  rows : Table.Indexed ElementId (List ScoredListing)
  /-- The number of times that a profile was cleared. -/
  deletes : Nat
  /-- The number of listings inserted. -/
  inserts : Nat

namespace InSlots

def empty : InSlots := ⟨.empty, 0, 0⟩

/-- Forgets the listings of a profile. There is no result if a slot has no row. -/
def deleteAll? (s : InSlots) (profile : ElementId) : Option InSlots :=
  (s.rows.update? profile [] fun _ ↦ []).map fun rows ↦
    { s with rows := rows, deletes := s.deletes + 1 }

/-- Appends a listing to those of a profile. There is no result if a slot has no row. -/
def insert? (s : InSlots) (profile : ElementId) (entry : ScoredListing) : Option InSlots :=
  (s.rows.update? profile [] (· ++ [entry])).map fun rows ↦
    { s with rows := rows, inserts := s.inserts + 1 }

def write? (s : InSlots) : Write → Option InSlots
  | .clear profile => s.deleteAll? profile
  | .insert profile entry => s.insert? profile entry

/-- The stored listings of a profile. There is no result if a slot has no row. -/
def recommendationsFor? (s : InSlots) (profile : ElementId) : Option (List ScoredListing) :=
  (s.rows.read? profile).map (·.getD [])

def contents (s : InSlots) : List RankedList :=
  (s.rows.rows.toList.filter fun row ↦ !row.2.isEmpty).map fun row ↦ ⟨row.1, row.2⟩

/-- Rows and counts are those of the store. -/
structure Holds (s : InSlots) (store : Store) : Prop where
  /-- The rows are the same, and every slot has its row. -/
  rows : s.rows.Holds store.rows
  /-- As many profiles were cleared. -/
  deletes : s.deletes = store.deletes
  /-- As many listings were inserted. -/
  inserts : s.inserts = store.inserts

theorem Holds.exists_write {s : InSlots} {store : Store} (h : s.Holds store) (w : Write) :
    ∃ s', s.write? w = some s' ∧ s'.Holds (store.apply w) := by
  cases w with
  | clear profile =>
    obtain ⟨rows, hsome, hrows⟩ := h.rows.exists_update profile [] fun _ ↦ []
    refine ⟨⟨rows, s.deletes + 1, s.inserts⟩, ?_, hrows, congrArg (· + 1) h.deletes, h.inserts⟩
    rw [write?, deleteAll?, hsome]
    rfl
  | insert profile entry =>
    obtain ⟨rows, hsome, hrows⟩ := h.rows.exists_update profile [] (· ++ [entry])
    refine ⟨⟨rows, s.deletes, s.inserts + 1⟩, ?_, hrows, h.deletes, congrArg (· + 1) h.inserts⟩
    rw [write?, insert?, hsome]
    rfl

theorem exists_written (history : List Write) :
    ∃ s, history.foldlM write? empty = some s ∧ s.Holds (written history) :=
  Table.exists_foldlM_of_step (fun _ _ w h ↦ h.exists_write w) history
    ⟨Table.Indexed.holds_empty, rfl, rfl⟩

namespace Holds

variable {s : InSlots} {store : Store}

theorem recommendationsFor?_eq (h : s.Holds store) (profile : ElementId) :
    s.recommendationsFor? profile = some (store.recommendationsFor profile) := by
  rw [recommendationsFor?, h.rows.read?_eq, Option.map_some, recommendationsFor]

theorem contents_eq (h : s.Holds store) : s.contents = store.contents := by
  rw [contents, h.rows.rows, Store.contents]

end Holds

end InSlots

/-! ## The store as a multimap -/

/-- **What a store tells after any writes.** A profile has the listings that were inserted for it
since it was cleared last, in the order of insertion and as often as they were inserted, and none if
it was never written. The contents are the profiles that have listings, each once, in the order in
which they were first written by a write of either kind. Every write is counted. A write of one
profile changes the listings of no other. Where the rows are in an array with an index of slots, no
write and no read fails, and both tell the same. -/
theorem written_tells (history : List Write) :
    (∀ profile, (written history).recommendationsFor profile = inserted history profile) ∧
      (∀ profile ∉ history.map (·.profile), (written history).recommendationsFor profile = []) ∧
      (written history).contents
        = ((history.map (·.profile)).eraseDups.filter fun profile ↦
            inserted history profile ≠ []).map (fun profile ↦
              ⟨profile, inserted history profile⟩) ∧
      (written history).deletes = history.countP (·.isClear) ∧
      (written history).inserts = history.countP (!·.isClear) ∧
      (written history).writes = (written history).deletes + (written history).inserts ∧
      (written history).writes = history.length ∧
      (∀ w : Write, ∀ profile ≠ w.profile,
        (written (history ++ [w])).recommendationsFor profile
          = (written history).recommendationsFor profile) ∧
      ∃ s, history.foldlM InSlots.write? .empty = some s ∧
        (∀ profile, s.recommendationsFor? profile
          = some ((written history).recommendationsFor profile)) ∧
        s.contents = (written history).contents ∧
        s.deletes = (written history).deletes ∧ s.inserts = (written history).inserts := by
  obtain ⟨s, hsome, hholds⟩ := InSlots.exists_written history
  refine ⟨recommendationsFor_written history, fun profile hnew ↦ ?_, contents_written history,
    (counts_written history).1, (counts_written history).2, rfl, writes_written history,
    fun w profile hother ↦ ?_, s, hsome, hholds.recommendationsFor?_eq, hholds.contents_eq,
    hholds.deletes, hholds.inserts⟩
  · rw [recommendationsFor_written, inserted_of_not_mem history hnew]
  · rw [written_append_singleton, recommendationsFor_apply_of_ne _ hother]

/-- Two profiles are written in turns. One is cleared before anything is inserted for it, the other
one in between. -/
def interleaved : List Write :=
  [.clear (.number 1), .insert (.number 2) ⟨.number 7, .one⟩, .insert (.number 1) ⟨.number 8, .one⟩,
    .clear (.number 2), .insert (.number 1) ⟨.number 8, .one⟩, .insert (.number 3) ⟨.number 7, .one⟩,
    .clear (.number 3), .insert (.number 2) ⟨.number 9, .one⟩]

/-- The profile that was cleared first comes first, and the one that is empty is left out. -/
theorem written_tells_interleaved :
    (written interleaved).recommendationsFor (.number 1) = [⟨.number 8, .one⟩, ⟨.number 8, .one⟩] ∧
      (Write.clear (.number 4)).profile ∉ interleaved.map (·.profile) ∧
      (written interleaved).recommendationsFor (.number 4) = [] ∧
      (written interleaved).contents
        = [⟨.number 1, [⟨.number 8, .one⟩, ⟨.number 8, .one⟩]⟩, ⟨.number 2, [⟨.number 9, .one⟩]⟩] ∧
      (written interleaved).writes = 8 ∧
      (written (interleaved ++ [.clear (.number 2)])).recommendationsFor (.number 1)
        = (written interleaved).recommendationsFor (.number 1) ∧
      ∃ s, interleaved.foldlM InSlots.write? .empty = some s ∧
        s.recommendationsFor? (.number 3) = some [] := by
  obtain ⟨hread, hnew, hcontents, -, -, -, hwrites, hframe, s, hsome, hslots, -⟩ :=
    written_tells interleaved
  have hfour : .number 4 ∉ interleaved.map (·.profile) := by decide
  have hthree : (written interleaved).recommendationsFor (.number 3) = [] :=
    (hread _).trans (by decide)
  refine ⟨(hread _).trans (by decide +kernel), hfour, hnew _ hfour,
    hcontents.trans (by decide +kernel), hwrites, hframe (.clear (.number 2)) _ (by decide), s,
    hsome, ?_⟩
  rw [hslots, hthree]

end Store

end BookmarkGraph
