import BookmarkGraph.Proofs.Graph.Numbering
import BookmarkGraph.Proofs.Builder
import Mathlib.Algebra.BigOperators.Group.List.Lemmas
import Mathlib.Algebra.GroupWithZero.Nat

/-!
# Listing the vertices of a graph

A graph lists its vertices by their places, from zero up to their number as a 32-bit word. The word
is right as long as the arena has room. It is zero when the arena is full, because an arena takes
as many vertices as there are places, which is one more than the last place: a full graph lists
nothing, though looking up a place or an id works as before.

So everything that walks over all vertices sees either all rows of the graph or none, `listed`.
-/

namespace BookmarkGraph.Graph

variable {g : Graph}

/-! ## Places -/

theorem vertexIndices_of_room (hroom : g.vertices.size < arenaCapacity) :
    g.vertexIndices = (List.range g.vertices.size).map fun i ↦ ⟨UInt32.ofNat i⟩ := by
  rw [vertexIndices, UInt32.toNat_ofNat_of_lt' hroom]

/-- As a 32-bit word the number of vertices is zero. -/
theorem vertexIndices_of_full (hfull : g.vertices.size = arenaCapacity) : g.vertexIndices = [] := by
  rw [vertexIndices, hfull]
  rfl

theorem map_position_vertexIndices (hroom : g.vertices.size < arenaCapacity) :
    g.vertexIndices.map (·.position.toNat) = List.range g.vertices.size := by
  rw [vertexIndices_of_room hroom, List.map_map]
  refine (List.map_congr_left fun i hi ↦ ?_).trans (List.map_id _)
  exact UInt32.toNat_ofNat_of_lt' (Nat.lt_trans (List.mem_range.mp hi) hroom)

theorem pairwise_vertexIndices (g : Graph) :
    g.vertexIndices.Pairwise fun a b ↦ a.position < b.position := by
  have hrange := @List.pairwise_lt_range (UInt32.ofNat g.vertices.size).toNat
  refine List.pairwise_map.mpr (hrange.imp_of_mem fun {i j} _ hj hij ↦ ?_)
  have hj' : j < 2 ^ 32 := Nat.lt_trans (List.mem_range.mp hj) (UInt32.toNat_lt _)
  rw [UInt32.lt_iff_toNat_lt, UInt32.toNat_ofNat_of_lt' hj',
    UInt32.toNat_ofNat_of_lt' (Nat.lt_trans hij hj')]
  exact hij

theorem nodup_vertexIndices (g : Graph) : g.vertexIndices.Nodup :=
  g.pairwise_vertexIndices.imp fun {a b} (hlt : a.position < b.position) (heq : a = b) ↦
    UInt32.lt_irrefl b.position (heq ▸ hlt)

theorem mem_vertexIndices (hroom : g.vertices.size < arenaCapacity) {index : VertexIndex}
    (hindex : index.position.toNat < g.vertices.size) : index ∈ g.vertexIndices := by
  rw [vertexIndices_of_room hroom]
  refine List.mem_map.mpr ⟨_, List.mem_range.mpr hindex, ?_⟩
  rw [UInt32.ofNat_toNat]

theorem pairwise_verticesWithLabel (g : Graph) (label : String) :
    (g.verticesWithLabel label).Pairwise fun a b ↦ a.position < b.position :=
  g.pairwise_vertexIndices.filter _

theorem has_verticesWithLabel (hsize : g.vertices.size ≤ arenaCapacity) (label : String) :
    ∀ index ∈ g.verticesWithLabel label, g.Has index :=
  fun index hindex ↦ has_vertexIndices hsize index (List.mem_filter.mp hindex).1

theorem filter_labelAt_vertexIndices (hsize : g.vertices.size ≤ arenaCapacity) (label : String) :
    (g.vertexIndices.filter fun index ↦ g.labelAt index = label) = g.verticesWithLabel label := by
  refine List.filter_congr fun index hindex ↦ ?_
  obtain ⟨v, hv⟩ := has_vertexIndices hsize index hindex
  rw [labelAt_eq hv, vertex_eq_ok.mp hv, Option.any_some]

theorem mem_verticesWithLabel {l : VertexIndex} (hsize : g.vertices.size < arenaCapacity)
    {label : String} :
    l ∈ g.verticesWithLabel label ↔ ∃ w, g.vertex l = .ok w ∧ w.label = label := by
  rw [verticesWithLabel, List.mem_filter]
  constructor
  · rintro ⟨hmem, hlabel⟩
    obtain ⟨w, hw⟩ := has_vertexIndices hsize.le l hmem
    rw [vertex_eq_ok.mp hw, Option.any_some] at hlabel
    exact ⟨w, hw, of_decide_eq_true hlabel⟩
  · rintro ⟨w, hw, hlabel⟩
    refine ⟨mem_vertexIndices hsize (position_lt hw), ?_⟩
    rw [vertex_eq_ok.mp hw, Option.any_some]
    exact decide_eq_true hlabel

/-! ## Rows -/

/-- The row at a place that holds a vertex. -/
def rowAt (g : Graph) (index : VertexIndex) : Row :=
  (g.vertices[index.position.toNat]?.getD default).row

theorem rowAt_eq {index : VertexIndex} {v : Vertex} (h : g.vertex index = .ok v) :
    g.rowAt index = v.row := by
  rw [rowAt, vertex_eq_ok.mp h]
  rfl

/-- The rows that a graph of these rows lists: all of them, or none once the arena is full. -/
def listed (rows : List Row) : List Row := if rows.length < arenaCapacity then rows else []

theorem listed_of_lt {rows : List Row} (h : rows.length < arenaCapacity) : listed rows = rows :=
  if_pos h

theorem listed_sublist (rows : List Row) : (listed rows).Sublist rows := by
  rw [listed]
  split
  · exact List.Sublist.refl rows
  · exact List.nil_sublist rows

theorem length_rows (g : Graph) : g.rows.length = g.vertices.size := by
  rw [rows, List.length_map, Array.length_toList]

/-- A listed vertex stands for its row. -/
theorem map_rowAt_vertexIndices (hsize : g.vertices.size ≤ arenaCapacity) :
    g.vertexIndices.map g.rowAt = listed g.rows := by
  by_cases hroom : g.vertices.size < arenaCapacity
  · rw [listed_of_lt (g.length_rows ▸ hroom), vertexIndices_of_room hroom, List.map_map]
    refine List.ext_getElem (by simp [rows]) fun i hi _ ↦ ?_
    rw [List.length_map, List.length_range] at hi
    have hv : g.vertex ⟨UInt32.ofNat i⟩ = .ok g.vertices[i] := by
      rw [vertex_eq_ok, UInt32.toNat_ofNat_of_lt' (Nat.lt_trans hi hroom)]
      exact Array.getElem?_eq_getElem hi
    simp only [rows, List.getElem_map, List.getElem_range, Function.comp_apply, rowAt_eq hv,
      Array.getElem_toList]
  · have hfull : g.vertices.size = arenaCapacity := Nat.le_antisymm hsize (Nat.not_lt.mp hroom)
    rw [vertexIndices_of_full hfull, listed, if_neg (g.length_rows ▸ hroom), List.map_nil]

theorem map_rowAt_verticesWithLabel (hsize : g.vertices.size ≤ arenaCapacity) (label : String) :
    (g.verticesWithLabel label).map g.rowAt = (listed g.rows).filter (·.label = label) := by
  rw [← map_rowAt_vertexIndices hsize, List.filter_map, verticesWithLabel]
  refine congrArg (List.map _) (List.filter_congr fun index hindex ↦ ?_)
  obtain ⟨v, hv⟩ := has_vertexIndices hsize index hindex
  rw [Function.comp_apply, rowAt_eq hv, vertex_eq_ok.mp hv]
  rfl

theorem map_idAt_verticesWithLabel (hsize : g.vertices.size ≤ arenaCapacity) (label : String) :
    (g.verticesWithLabel label).map g.idAt
      = ((listed g.rows).filter (·.label = label)).map (·.id) := by
  rw [← map_rowAt_verticesWithLabel hsize, List.map_map]
  refine List.map_congr_left fun index hindex ↦ ?_
  obtain ⟨v, hv⟩ := has_verticesWithLabel hsize label index hindex
  rw [Function.comp_apply, rowAt_eq hv, idAt_eq hv]
  rfl

theorem length_verticesWithLabel (hroom : g.vertices.size < arenaCapacity) (label : String) :
    (g.verticesWithLabel label).length = (g.vertices.toList.map (·.label)).count label := by
  have hrows := map_rowAt_verticesWithLabel (Nat.le_of_lt hroom) label
  rw [listed_of_lt (g.length_rows ▸ hroom)] at hrows
  rw [← List.length_map g.rowAt, hrows, ← List.countP_eq_length_filter, rows, List.countP_map,
    List.count_eq_countP, List.countP_map]
  rfl

/-! ## Label counts -/

theorem mem_keys_countLabel {label key : String} {counts : List (String × Nat)} :
    key ∈ (countLabel label counts).map (·.1) ↔ key = label ∨ key ∈ counts.map (·.1) := by
  induction counts with
  | nil => simp [countLabel]
  | cons count rest ih =>
    obtain ⟨l, n⟩ := count
    rw [countLabel]
    split
    · exact List.mem_cons
    · split
      · rename_i heq
        rw [heq, List.map_cons, List.map_cons, List.mem_cons]
        exact or_self_left.symm
      · rw [List.map_cons, List.map_cons, List.mem_cons, List.mem_cons, ih]
        exact or_left_comm

theorem pairwise_countLabel (label : String) {counts : List (String × Nat)}
    (h : (counts.map (·.1)).Pairwise (· < ·)) :
    ((countLabel label counts).map (·.1)).Pairwise (· < ·) := by
  induction counts with
  | nil => exact List.pairwise_singleton _ label
  | cons count rest ih =>
    obtain ⟨l, n⟩ := count
    obtain ⟨hfirst, hrest⟩ := List.pairwise_cons.mp h
    rw [countLabel]
    split
    · rename_i hlt
      refine List.pairwise_cons.mpr ⟨fun key hkey ↦ ?_, h⟩
      rcases List.mem_cons.mp hkey with rfl | hkey
      · exact hlt
      · exact String.lt_trans hlt (hfirst key hkey)
    · rename_i hnlt
      split
      · exact h
      · rename_i hne
        refine List.pairwise_cons.mpr ⟨fun key hkey ↦ ?_, ih hrest⟩
        rcases mem_keys_countLabel.mp hkey with rfl | hkey
        · exact Properties.lt_of_not_lt_of_ne hnlt hne
        · exact hfirst key hkey

theorem labelCounts_append (labels : List String) (label : String) :
    labelCounts (labels ++ [label]) = countLabel label (labelCounts labels) := by
  rw [labelCounts, List.foldl_append, ← labelCounts, List.foldl_cons, List.foldl_nil]

theorem pairwise_labelCounts (labels : List String) :
    ((labelCounts labels).map (·.1)).Pairwise (· < ·) := by
  induction labels using List.reverseRecOn with
  | nil => exact List.Pairwise.nil
  | append_singleton labels label ih =>
    rw [labelCounts_append]
    exact pairwise_countLabel label ih

theorem mem_keys_labelCounts {labels : List String} {key : String} :
    key ∈ (labelCounts labels).map (·.1) ↔ key ∈ labels := by
  induction labels using List.reverseRecOn with
  | nil => exact Iff.rfl
  | append_singleton labels label ih =>
    rw [labelCounts_append, mem_keys_countLabel, ih, List.mem_append, List.mem_singleton, or_comm]

theorem perm_keys_labelCounts (labels : List String) :
    ((labelCounts labels).map (·.1)).Perm labels.dedup := by
  have hnodup : ((labelCounts labels).map (·.1)).Nodup :=
    (pairwise_labelCounts labels).imp fun {a b} (hlt : a < b) (heq : a = b) ↦
      String.lt_irrefl b (heq ▸ hlt)
  exact (List.perm_ext_iff_of_nodup hnodup labels.nodup_dedup).mpr fun key ↦ by
    rw [mem_keys_labelCounts, List.mem_dedup]

/-! ## All vertices, or none -/

theorem count_vertices (g : Graph) :
    ((Query.build g [.vertices]).count g).1 = .ok g.vertexIndices.length :=
  Query.count_of_denote (Query.outcome_build_vertices []) (List.cons_ne_nil _ _)
    (denote_start g g.vertexIndices)

/-- The arena is full exactly if a new vertex is refused for that reason. -/
theorem arenaFull_iff (hsize : g.vertices.size ≤ arenaCapacity) (label : String)
    (properties : Properties) :
    (g.addVertex label properties none).answer = .error (.invalidState .arenaFull) ↔
      g.vertexCount = arenaCapacity := by
  rw [addVertex, appendVertex]
  by_cases hroom : g.vertices.size < arenaCapacity
  · rw [if_pos hroom]
    exact ⟨fun h ↦ (by cases h), fun h ↦ absurd h hroom.ne⟩
  · rw [if_neg hroom]
    exact ⟨fun _ ↦ Nat.le_antisymm hsize (Nat.not_lt.mp hroom), fun _ ↦ rfl⟩

/-- **All vertices are listed, as long as the arena has room.** Take a graph that mutations lead to.
It has at most as many vertices as there are places, and it has that many exactly if a further
vertex is refused because the arena is full. With fewer vertices every place is listed once, in the
order of insertion, so that a traversal over all vertices counts as many as there are, and the
vertices of the labels that occur add up to all vertices. In a full arena nothing is listed: a
traversal over all vertices counts none, and no label has a vertex. -/
theorem Reachable.vertices_listed (h : g.Reachable) :
    g.vertexCount ≤ arenaCapacity ∧
      (∀ label properties, (g.addVertex label properties none).answer
        = .error (.invalidState .arenaFull) ↔ g.vertexCount = arenaCapacity) ∧
      (g.vertexCount < arenaCapacity →
        g.vertexIndices.map (·.position.toNat) = List.range g.vertexCount ∧
        ((Query.build g [.vertices]).count g).1 = .ok g.vertexCount ∧
        (g.stats.vertexLabels.map fun row ↦ (g.verticesWithLabel row.1).length).sum
          = g.stats.vertices) ∧
      (g.vertexCount = arenaCapacity →
        g.vertexIndices = [] ∧ ((Query.build g [.vertices]).count g).1 = .ok 0 ∧
        ∀ label, g.verticesWithLabel label = []) := by
  have hsize := h.wellFormed.vertices_le
  refine ⟨hsize, arenaFull_iff hsize, fun hroom ↦ ?_, fun hfull ↦ ?_⟩
  · have hplaces := map_position_vertexIndices hroom
    refine ⟨hplaces, ?_, ?_⟩
    · rw [count_vertices, ← List.length_map (·.position.toNat), hplaces, List.length_range]
      rfl
    · set labels := g.vertices.toList.map (·.label) with hlabels
      have hperm := (perm_keys_labelCounts labels).map (labels.count ·)
      rw [List.map_map] at hperm
      calc (g.stats.vertexLabels.map fun row ↦ (g.verticesWithLabel row.1).length).sum
          = ((labelCounts labels).map fun row ↦ labels.count row.1).sum :=
            congrArg List.sum (List.map_congr_left fun row _ ↦ length_verticesWithLabel hroom row.1)
        _ = (labels.dedup.map (labels.count ·)).sum := hperm.sum_eq
        _ = labels.length := List.sum_map_count_dedup_eq_length labels
        _ = g.stats.vertices := by
          rw [hlabels, List.length_map, Array.length_toList]
          rfl
  · have hnone := vertexIndices_of_full hfull
    refine ⟨hnone, ?_, fun label ↦ ?_⟩
    · rw [count_vertices, hnone, List.length_nil]
    · rw [verticesWithLabel, hnone, List.filter_nil]

/-- Vertices of two labels, one more that is refused for its id, and an edge in between. -/
def assorted : Graph :=
  grown [.vertex "page" .empty none, .vertex "user" .empty none, .edge "owns" ⟨1⟩ ⟨0⟩ .empty,
    .vertex "page" .empty (some (.number 2)), .vertex "page" .empty none]

theorem vertices_listed_assorted :
    assorted.Reachable ∧ assorted.vertexCount < arenaCapacity ∧
      assorted.vertexIndices.map (·.position.toNat) = [0, 1, 2] ∧
      ((Query.build assorted [.vertices]).count assorted).1 = .ok 3 ∧
      assorted.stats.vertexLabels.map (·.1) = ["page", "user"] ∧
      (assorted.stats.vertexLabels.map fun row ↦ (assorted.verticesWithLabel row.1).length).sum
        = 3 := by
  have hreachable : assorted.Reachable := reachable_grown _
  have hcount : assorted.vertexCount = 3 := by decide +kernel
  have hroom : assorted.vertexCount < arenaCapacity := by
    rw [hcount]
    decide
  obtain ⟨hplaces, hvertices, hsum⟩ := hreachable.vertices_listed.2.2.1 hroom
  refine ⟨hreachable, hroom, ?_, ?_, by decide +kernel, hsum.trans hcount⟩
  · rw [hplaces, hcount]
    rfl
  · rw [hvertices, hcount]

/-! ## A full arena -/

/-- The graph of so many vertices that differ in their ids only. -/
def filled (n : Nat) : Graph := grown (List.replicate n (.vertex "n" .empty none))

theorem size_filled {n : Nat} (h : n ≤ arenaCapacity) : (filled n).vertices.size = n := by
  induction n with
  | zero => rfl
  | succ n ih =>
    have hsize := ih (Nat.le_of_succ_le h)
    have hroom : (filled n).vertices.size < arenaCapacity := by
      rw [hsize]
      exact h
    rw [filled, List.replicate_succ', grown_append, ← filled, insert, addVertex, appendVertex,
      if_pos hroom, Array.size_push, hsize]

/-- A graph that was filled until a vertex was refused lists none of its vertices. -/
theorem filled_lists_nothing :
    (filled arenaCapacity).Reachable ∧
      ((filled arenaCapacity).addVertex "n" .empty none).answer
        = .error (.invalidState .arenaFull) ∧
      (filled arenaCapacity).vertexCount = arenaCapacity ∧
      (filled arenaCapacity).vertexIndices.map (·.position.toNat)
        ≠ List.range (filled arenaCapacity).vertexCount ∧
      ((Query.build (filled arenaCapacity) [.vertices]).count (filled arenaCapacity)).1
        ≠ .ok (filled arenaCapacity).vertexCount ∧
      ((filled arenaCapacity).stats.vertexLabels.map fun row ↦
        ((filled arenaCapacity).verticesWithLabel row.1).length).sum
          ≠ (filled arenaCapacity).stats.vertices := by
  have hsize : (filled arenaCapacity).vertices.size = arenaCapacity := size_filled (Nat.le_refl _)
  have hreachable : (filled arenaCapacity).Reachable := reachable_grown _
  generalize filled arenaCapacity = g at hsize hreachable ⊢
  have hnone := vertexIndices_of_full hsize
  have hpositive : 0 < arenaCapacity := by decide
  have hcount : g.vertexCount ≠ 0 := fun h ↦ hpositive.ne (h.symm.trans hsize)
  refine ⟨hreachable, (arenaFull_iff hsize.le "n" .empty).mpr hsize, hsize, fun h ↦ ?_, fun h ↦ ?_,
    fun h ↦ ?_⟩
  · rw [hnone] at h
    have hlength := congrArg List.length h
    rw [List.length_range] at hlength
    exact hcount hlength.symm
  · rw [count_vertices, hnone] at h
    exact hcount (Except.ok.inj h).symm
  · refine hcount (h.symm.trans (List.sum_eq_zero fun n hn ↦ ?_))
    obtain ⟨row, -, rfl⟩ := List.mem_map.mp hn
    rw [verticesWithLabel, hnone]
    rfl

end BookmarkGraph.Graph
