import BookmarkGraph.Graph.Basic
import Mathlib.Data.List.Perm.Basic
import Mathlib.Data.List.Induction

/-!
# What an edge list files

One side of a vertex is filled edge by edge. `EdgeLists.ofEdges` is the result for a given sequence
of edges, and everything a reader can ask of it is expressed by that sequence: the group of a label
is the subsequence of that label, the labels stand in the order of first use, and all groups
together are a rearrangement of the sequence.

Every statement is an induction from the back of the sequence, because an edge is filed behind
those already there. The step is a lemma on `push`, proved on the rows of the table.
-/

namespace BookmarkGraph

namespace EdgeLists

/-! ## Filing one more edge -/

theorem get_push (lists : EdgeLists) (label other : String) (edge : EdgeIndex) :
    (lists.push label edge).get other
      = if other = label then lists.get label ++ [edge] else lists.get other := by
  rw [get, push, Table.get?_update]
  by_cases h : other = label
  · rw [if_pos (beq_iff_eq.mpr h), if_pos h]
    rfl
  · rw [if_neg (by simpa using h), if_neg h]
    rfl

theorem labels_push (lists : EdgeLists) (label : String) (edge : EdgeIndex) :
    (lists.push label edge).labels
      = if label ∈ lists.labels then lists.labels else lists.labels ++ [label] := by
  rw [labels, push, Table.keys_update]
  rfl

private theorem flatMap_updateRows (label : String) (edge : EdgeIndex)
    (rows : List (String × List EdgeIndex)) :
    ((Table.updateRows label (fun edges ↦ edges.getD [] ++ [edge]) rows).flatMap (·.2)).Perm
      (rows.flatMap (·.2) ++ [edge]) := by
  induction rows with
  | nil => simp [Table.updateRows]
  | cons row rest ih =>
    obtain ⟨other, edges⟩ := row
    rw [Table.updateRows]
    split
    · rw [List.flatMap_cons, List.flatMap_cons, Option.getD_some, List.append_assoc,
        List.append_assoc]
      exact List.Perm.append_left edges List.perm_append_comm
    · rw [List.flatMap_cons, List.flatMap_cons, List.append_assoc]
      exact List.Perm.append_left edges ih

theorem all_push (lists : EdgeLists) (label : String) (edge : EdgeIndex) :
    (lists.push label edge).all.Perm (lists.all ++ [edge]) :=
  flatMap_updateRows label edge lists.groups.rows

private theorem ne_nil_of_mem_updateRows {label : String} {edge : EdgeIndex}
    {rows : List (String × List EdgeIndex)} (h : ∀ group ∈ rows, group.2 ≠ []) :
    ∀ group ∈ Table.updateRows label (fun edges ↦ edges.getD [] ++ [edge]) rows,
      group.2 ≠ [] := by
  induction rows with
  | nil => simp [Table.updateRows]
  | cons row rest ih =>
    obtain ⟨other, edges⟩ := row
    have hrest : ∀ group ∈ rest, group.2 ≠ [] := fun group hg ↦
      h group (List.mem_cons_of_mem _ hg)
    intro group hgroup
    rw [Table.updateRows] at hgroup
    split at hgroup
    · rcases List.mem_cons.mp hgroup with rfl | hgroup
      · simp
      · exact hrest group hgroup
    · rcases List.mem_cons.mp hgroup with rfl | hgroup
      · exact h _ List.mem_cons_self
      · exact ih hrest group hgroup

theorem group_ne_nil_push {lists : EdgeLists} (h : ∀ group ∈ lists.groups.rows, group.2 ≠ [])
    (label : String) (edge : EdgeIndex) :
    ∀ group ∈ (lists.push label edge).groups.rows, group.2 ≠ [] :=
  ne_nil_of_mem_updateRows h

theorem size_eq_length_all (lists : EdgeLists) : lists.size = lists.all.length := by
  rw [size, all]
  induction lists.groups.rows with
  | nil => rfl
  | cons group rest ih => rw [List.foldr_cons, ih, List.flatMap_cons, List.length_append]

/-! ## Filing a sequence of edges -/

/-- The edge lists that result from filing edges one after the other. -/
def ofEdges (edges : List (EdgeIndex × Edge)) : EdgeLists :=
  edges.foldl (fun lists e ↦ lists.push e.2.label e.1) .empty

theorem ofEdges_append (edges : List (EdgeIndex × Edge)) (e : EdgeIndex × Edge) :
    ofEdges (edges ++ [e]) = (ofEdges edges).push e.2.label e.1 := by
  rw [ofEdges, List.foldl_append, List.foldl_cons, List.foldl_nil, ← ofEdges]

/-- The group of a label is the subsequence of that label. -/
theorem get_ofEdges (edges : List (EdgeIndex × Edge)) (label : String) :
    (ofEdges edges).get label = (edges.filter fun e ↦ e.2.label = label).map (·.1) := by
  induction edges using List.reverseRecOn with
  | nil => rfl
  | append_singleton edges e ih =>
    rw [ofEdges_append, get_push, List.filter_append, List.map_append, ← ih]
    by_cases h : label = e.2.label
    · rw [if_pos h, h]
      simp
    · rw [if_neg h, List.filter_cons_of_neg (by simpa using Ne.symm h), List.filter_nil,
        List.map_nil, List.append_nil]

theorem labels_ofEdges (edges : List (EdgeIndex × Edge)) :
    (ofEdges edges).labels = (edges.map (·.2.label)).eraseDups := by
  induction edges using List.reverseRecOn with
  | nil => rfl
  | append_singleton edges e ih =>
    rw [ofEdges_append, labels_push, ih, List.map_append, List.eraseDups_append, List.map_singleton]
    by_cases h : e.2.label ∈ edges.map (·.2.label)
    · rw [if_pos (List.mem_eraseDups.mpr h)]
      simp [List.removeAll, h]
    · rw [if_neg fun hmem ↦ h (List.mem_eraseDups.mp hmem)]
      simp [List.removeAll, List.eraseDups_cons, h]

theorem group_ne_nil_ofEdges (edges : List (EdgeIndex × Edge)) :
    ∀ group ∈ (ofEdges edges).groups.rows, group.2 ≠ [] := by
  induction edges using List.reverseRecOn with
  | nil => intro group h; exact absurd h List.not_mem_nil
  | append_singleton edges e ih =>
    rw [ofEdges_append]
    exact group_ne_nil_push ih _ _

/-- The groups together are the whole sequence, rearranged. -/
theorem all_ofEdges (edges : List (EdgeIndex × Edge)) :
    (ofEdges edges).all.Perm (edges.map (·.1)) := by
  induction edges using List.reverseRecOn with
  | nil => rfl
  | append_singleton edges e ih =>
    rw [ofEdges_append, List.map_append]
    exact (all_push _ _ _).trans (ih.append_right _)

theorem size_ofEdges (edges : List (EdgeIndex × Edge)) : (ofEdges edges).size = edges.length := by
  rw [size_eq_length_all, (all_ofEdges edges).length_eq, List.length_map]

theorem isEmpty_ofEdges (edges : List (EdgeIndex × Edge)) :
    (ofEdges edges).isEmpty = true ↔ edges = [] := by
  have hkeys : (ofEdges edges).isEmpty = (ofEdges edges).labels.isEmpty := by
    rw [isEmpty, labels, Table.isEmpty, Table.keys, List.isEmpty_map]
  rw [hkeys, labels_ofEdges, List.isEmpty_iff]
  cases edges with
  | nil => simp
  | cons e rest => simp [List.eraseDups_cons]

end EdgeLists

end BookmarkGraph
