import BookmarkGraph.Proofs.Graph.Ids
import Mathlib.Data.List.Chain
import Mathlib.Order.Bounds.Defs

/-!
# The numbers that a graph picks

A vertex without an id of its own is named by a number that the graph picks. Names that are given
may be numbers too, ahead of the search or behind it, so the graph cannot just count. What it relies
on is that every number behind the search is taken, `Numbered`: by the graph itself or by somebody
else. Nothing ever frees an id, so this is kept, and a search that goes on from there ends on the
least free number above the last one that was picked.

A full arena breaks it. A number is used up there and no vertex gets it; but from then on no number
is picked at all.
-/

namespace BookmarkGraph

/-- A way for a graph to grow. -/
inductive Insertion where
  /-- Insert a vertex, under an id of its own or under one that the graph picks. -/
  | vertex (label : String) (properties : Properties) (id : Option ElementId)
  /-- Register an edge between two places. -/
  | edge (label : String) (source target : VertexIndex) (properties : Properties)
  /-- Register an edge between two ids. -/
  | edgeBetween (label : String) (source target : ElementId) (properties : Properties)

/-- The insertion leaves it to the graph to name a vertex. -/
def Insertion.Unnamed (insertion : Insertion) : Prop :=
  ∃ label properties, insertion = .vertex label properties none

namespace Graph

/-! ## Histories -/

/-- The graph after an insertion, whether that succeeds or not. -/
def insert (g : Graph) : Insertion → Graph
  | .vertex label properties id => (g.addVertex label properties id).graph
  | .edge label source target properties => (g.addEdge label source target properties).graph
  | .edgeBetween label source target properties =>
    (g.addEdgeBetween label source target properties).graph

/-- The id of the new vertex, if there is one and the graph picked its id. -/
def picked (g : Graph) : Insertion → Option ElementId
  | .vertex label properties none =>
    let mutation := g.addVertex label properties none
    mutation.answer.toOption.map mutation.graph.idAt
  | _ => none

def grown (history : List Insertion) : Graph := history.foldl insert .empty

/-- The ids that graphs pick in the course of a history from a graph on. -/
def pickedFrom (g : Graph) : List Insertion → List ElementId
  | [] => []
  | insertion :: rest => (g.picked insertion).toList ++ (g.insert insertion).pickedFrom rest

theorem grown_append (history : List Insertion) (insertion : Insertion) :
    grown (history ++ [insertion]) = (grown history).insert insertion := by
  rw [grown, List.foldl_append, ← grown, List.foldl_cons, List.foldl_nil]

theorem pickedFrom_append (g : Graph) (history : List Insertion) (insertion : Insertion) :
    g.pickedFrom (history ++ [insertion])
      = g.pickedFrom history ++ ((history.foldl insert g).picked insertion).toList := by
  induction history generalizing g with
  | nil => exact List.append_nil _
  | cons first history ih =>
    rw [List.cons_append, pickedFrom, ih, pickedFrom, List.append_assoc, List.foldl_cons]

/-- The graphs that mutations lead to are those that have a history. -/
theorem reachable_iff_grown {g : Graph} : g.Reachable ↔ ∃ history, g = grown history := by
  constructor
  · intro h
    induction h with
    | empty => exact ⟨[], rfl⟩
    | addVertex label properties id _ ih =>
      obtain ⟨history, rfl⟩ := ih
      exact ⟨_, (grown_append history (.vertex label properties id)).symm⟩
    | addEdge label source target properties _ ih =>
      obtain ⟨history, rfl⟩ := ih
      exact ⟨_, (grown_append history (.edge label source target properties)).symm⟩
    | addEdgeBetween label source target properties _ ih =>
      obtain ⟨history, rfl⟩ := ih
      exact ⟨_, (grown_append history (.edgeBetween label source target properties)).symm⟩
  · rintro ⟨history, rfl⟩
    refine List.foldlRecOn (motive := Reachable) _ _ .empty fun g h insertion _ ↦ ?_
    cases insertion with
    | vertex label properties id => exact h.addVertex label properties id
    | edge label source target properties => exact h.addEdge label source target properties
    | edgeBetween label source target properties =>
      exact h.addEdgeBetween label source target properties

theorem reachable_grown (history : List Insertion) : (grown history).Reachable :=
  reachable_iff_grown.mpr ⟨history, rfl⟩

theorem size_index_grown (history : List Insertion) :
    (grown history).index.size ≤ arenaCapacity := by
  have hg := (reachable_grown history).indexed
  rw [hg.size_index]
  exact hg.vertices_le

/-! ## Insertions that name their vertices -/

theorem addEdge_graph (g : Graph) (label : String) (source target : VertexIndex)
    (properties : Properties) :
    (g.addEdge label source target properties).graph = g ∨
      (g.addEdge label source target properties).graph
        = g.register label source target properties := by
  rcases g.addEdge_eq label source target properties with ⟨e, h⟩ | ⟨-, -, -, h⟩
  · exact .inl (congrArg Mutation.graph h)
  · exact .inr (congrArg Mutation.graph h)

/-- Unless a vertex is left to the graph to name, an insertion changes nothing, appends a vertex or
registers an edge. -/
theorem insert_of_named (g : Graph) {insertion : Insertion} (h : ¬insertion.Unnamed) :
    g.insert insertion = g ∨
      (∃ id label properties, g.insert insertion = g.pushVertex id label properties) ∨
      ∃ label source target properties,
        g.insert insertion = g.register label source target properties := by
  have hedge : ∀ label source target properties,
      (g.addEdge label source target properties).graph = g ∨
        ∃ label' source' target' properties', (g.addEdge label source target properties).graph
          = g.register label' source' target' properties' := fun label source target properties ↦
    (g.addEdge_graph label source target properties).imp_right fun heq ↦ ⟨_, _, _, _, heq⟩
  cases insertion with
  | vertex label properties id =>
    have hgiven : id ≠ none := fun hid ↦ h ⟨label, properties, by rw [hid]⟩
    obtain ⟨id, rfl⟩ := Option.ne_none_iff_exists'.mp hgiven
    rw [insert]
    rcases g.addVertex_named label properties id with ⟨e, heq⟩ | ⟨-, -, heq⟩
    · rw [heq]
      exact .inl rfl
    · rw [heq]
      exact .inr (.inl ⟨id, label, properties, rfl⟩)
  | edge label source target properties =>
    exact (hedge label source target properties).imp_right .inr
  | edgeBetween label source target properties =>
    rw [insert]
    rcases g.addEdgeBetween_graph label source target properties with heq | ⟨s, t, heq⟩
    · exact .inl heq
    · rw [heq]
      exact (hedge label s t properties).imp_right .inr

theorem picked_of_named (g : Graph) {insertion : Insertion} (h : ¬insertion.Unnamed) :
    g.picked insertion = none := by
  cases insertion with
  | vertex label properties id =>
    cases id with
    | none => exact absurd ⟨label, properties, rfl⟩ h
    | some id => rfl
  | edge _ _ _ _ | edgeBetween _ _ _ _ => rfl

theorem kept_of_named (g : Graph) {insertion : Insertion} (h : ¬insertion.Unnamed) :
    (g.insert insertion).nextNumber = g.nextNumber ∧
      ∀ id, g.hasId id = true → (g.insert insertion).hasId id = true := by
  rcases g.insert_of_named h with heq | ⟨_, _, _, heq⟩ | ⟨_, _, _, _, heq⟩
  · rw [heq]
    exact ⟨rfl, fun _ hid ↦ hid⟩
  · rw [heq]
    exact ⟨rfl, fun _ hid ↦ hasId_pushVertex.mpr (.inr hid)⟩
  · rw [heq]
    exact ⟨rfl, fun _ hid ↦ hid⟩

theorem size_insert (g : Graph) (insertion : Insertion) :
    (g.insert insertion).vertices.size = g.vertices.size ∨
      (g.insert insertion).vertices.size = g.vertices.size + 1 := by
  by_cases hunnamed : insertion.Unnamed
  · obtain ⟨label, properties, rfl⟩ := hunnamed
    rw [insert]
    rcases g.addVertex_graph label properties none with ⟨number, heq⟩ | ⟨-, number, id, -, heq⟩
    · exact .inl (by rw [heq])
    · exact .inr (by rw [heq, pushVertex, Array.size_push])
  · rcases g.insert_of_named hunnamed with heq | ⟨_, _, _, heq⟩ | ⟨_, _, _, _, heq⟩
    · exact .inl (by rw [heq])
    · exact .inr (by rw [heq, pushVertex, Array.size_push])
    · exact .inl (by rw [heq, size_vertices_register])

/-! ## The search -/

/-- Every number up to the last one is taken, and the search goes on right behind it. -/
structure Numbered (g : Graph) (last : UInt64) : Prop where
  /-- The search goes on behind the last number. -/
  next : g.nextNumber.toNat = last.toNat + 1
  /-- The numbers that are not behind the last one are taken. -/
  taken : ∀ k, 0 < k → k ≤ last → g.hasId (.number k) = true

theorem numbered_empty : Numbered .empty 0 where
  next := rfl
  taken _ hpos hle := absurd hpos (UInt64.not_lt.mpr hle)

theorem toNat_add_ofNat {n : UInt64} {i : Nat} (h : n.toNat + i < UInt64.size) :
    (n + UInt64.ofNat i).toNat = n.toNat + i := by
  rw [UInt64.toNat_add, UInt64.toNat_ofNat_of_lt' (by omega), Nat.mod_eq_of_lt h]

namespace Numbered

variable {g : Graph} {last : UInt64}

theorem add_le_size (h : g.Numbered last) {i : Nat} (hword : last.toNat + i < UInt64.size)
    (htaken : ∀ j < i, g.hasId (.number (g.nextNumber + UInt64.ofNat j)) = true) :
    last.toNat + i ≤ g.index.size := by
  have hnext := h.next
  refine le_size_of_hasId 1 (Nat.le_of_lt hword) fun j hj ↦ ?_
  have hnat : ((1 : UInt64) + UInt64.ofNat j).toNat = 1 + j :=
    toNat_add_ofNat (show 1 + j < UInt64.size by omega)
  by_cases hold : j < last.toNat
  · refine h.taken _ ?_ ?_
    · rw [UInt64.lt_iff_toNat_lt, hnat]
      exact Nat.add_pos_left Nat.one_pos j
    · rw [UInt64.le_iff_toNat_le, hnat]
      omega
  · -- the number is one of those that the search passes
    have hpassed : (1 : UInt64) + UInt64.ofNat j
        = g.nextNumber + UInt64.ofNat (j - last.toNat) := by
      rw [← UInt64.toNat_inj, hnat, toNat_add_ofNat (by omega)]
      omega
    rw [hpassed]
    exact htaken _ (by omega)

theorem le_size (h : g.Numbered last) : last.toNat ≤ g.index.size :=
  h.add_le_size (i := 0) last.toNat_lt_size fun j hj ↦ absurd hj (Nat.not_lt_zero j)

theorem mono {g' : Graph} (h : g.Numbered last) (hnext : g'.nextNumber = g.nextNumber)
    (hids : ∀ id, g.hasId id = true → g'.hasId id = true) : g'.Numbered last where
  next := by rw [hnext, h.next]
  taken k hpos hle := hids _ (h.taken k hpos hle)

/-- The search ends on the least free number above the last one. -/
theorem isLeast_freeNumber (h : g.Numbered last) (hsize : g.index.size ≤ arenaCapacity) :
    IsLeast {k | last < k ∧ g.hasId (.number k) = false}
        (g.freeNumber g.nextNumber g.index.size) ∧
      (g.freeNumber g.nextNumber g.index.size).toNat ≤ last.toNat + g.index.size + 1 := by
  have hcapacity : arenaCapacity + arenaCapacity + 1 < UInt64.size := by decide
  have hle := h.le_size
  have hnext := h.next
  obtain ⟨i, hi, heq, htaken, hfree⟩ := exists_freeNumber (g := g) (by omega) g.nextNumber
  have hnat : (g.nextNumber + UInt64.ofNat i).toNat = last.toNat + 1 + i := by
    rw [← hnext]
    exact toNat_add_ofNat (by omega)
  rw [heq, hnat]
  refine ⟨⟨⟨?_, hfree⟩, ?_⟩, by omega⟩
  · rw [UInt64.lt_iff_toNat_lt, hnat]
    omega
  · rintro k ⟨hlast, hk⟩
    rw [UInt64.lt_iff_toNat_lt] at hlast
    rw [UInt64.le_iff_toNat_le, hnat]
    by_contra hlt
    -- a number in between is one that the search has passed
    have hpassed : k = g.nextNumber + UInt64.ofNat (k.toNat - g.nextNumber.toNat) := by
      rw [← UInt64.toNat_inj, toNat_add_ofNat (by have := UInt64.toNat_lt_size k; omega)]
      omega
    rw [hpassed] at hk
    exact Bool.eq_false_iff.mp hk (htaken _ (by omega))

/-- While the arena has room, the graph picks the least free number above the last one, and all
numbers up to the new one are taken then. -/
theorem addVertex (h : g.Numbered last) (hsize : g.index.size ≤ arenaCapacity)
    (hroom : g.vertices.size < arenaCapacity) (label : String) (properties : Properties) :
    ∃ n, IsLeast {k | last < k ∧ g.hasId (.number k) = false} n ∧
      g.picked (.vertex label properties none) = some (.number n) ∧
      (g.insert (.vertex label properties none)).Numbered n := by
  obtain ⟨hleast, hle⟩ := h.isLeast_freeNumber hsize
  have hlast := h.le_size
  have hmutation := g.addVertex_unnamed label properties
  rw [if_pos hroom] at hmutation
  set n := g.freeNumber g.nextNumber g.index.size
  refine ⟨n, hleast, ?_, ?_⟩
  · rw [picked, hmutation]
    change some (idAt (g.pushVertex (.number n) label properties) _) = _
    rw [idAt, ids_pushVertex, UInt32.toNat_ofNat_of_lt' hroom, ← length_ids,
      List.getElem?_concat_length]
    rfl
  · rw [insert, hmutation]
    constructor
    · have hcapacity : arenaCapacity + arenaCapacity + 2 < UInt64.size := by decide
      exact toNat_add_ofNat (i := 1) (by omega)
    · intro k hpos hk
      change (g.pushVertex (.number n) label properties).hasId (.number k) = true
      rw [hasId_pushVertex, ElementId.number.injEq]
      by_cases hnew : k ≤ last
      · exact .inr (h.taken k hpos hnew)
      · by_cases hfree : g.hasId (.number k) = true
        · exact .inr hfree
        · have hge := hleast.2 ⟨UInt64.not_le.mp hnew, Bool.eq_false_iff.mpr hfree⟩
          exact .inl (UInt64.le_antisymm hk hge)

end Numbered

/-! ## Whole histories -/

theorem picked_of_full {g : Graph} (hfull : ¬g.vertices.size < arenaCapacity)
    (insertion : Insertion) : g.picked insertion = none := by
  by_cases hunnamed : insertion.Unnamed
  · obtain ⟨label, properties, rfl⟩ := hunnamed
    rw [picked, addVertex_unnamed, if_neg hfull]
    rfl
  · exact g.picked_of_named hunnamed

/-- The numbers that are picked in the course of a history ascend from above zero, and as long as
the arena has room every number up to the last one is taken. -/
theorem exists_numbers (history : List Insertion) :
    ∃ numbers : List UInt64, pickedFrom .empty history = numbers.map .number ∧
      (0 :: numbers).IsChain (· < ·) ∧ ((grown history).vertices.size < arenaCapacity →
        (grown history).Numbered (numbers.getLastD 0)) := by
  induction history using List.reverseRecOn with
  | nil => exact ⟨[], rfl, List.isChain_singleton 0, fun _ ↦ numbered_empty⟩
  | append_singleton history insertion ih =>
    obtain ⟨numbers, hpicked, hchain, hnumbered⟩ := ih
    rw [pickedFrom_append, hpicked, grown_append, ← grown]
    by_cases hroom : (grown history).vertices.size < arenaCapacity
    · by_cases hunnamed : insertion.Unnamed
      · obtain ⟨label, properties, rfl⟩ := hunnamed
        obtain ⟨n, hleast, hn, hnext⟩ :=
          (hnumbered hroom).addVertex (size_index_grown history) hroom label properties
        refine ⟨numbers ++ [n], ?_, ?_, fun _ ↦ ?_⟩
        · rw [hn, List.map_append]
          rfl
        · rw [← List.cons_append, List.isChain_append]
          refine ⟨hchain, List.isChain_singleton n, fun m hm k hk ↦ ?_⟩
          obtain rfl := Option.some.inj hk
          rw [List.getLast?_cons, ← List.getLastD_eq_getLast?] at hm
          rw [← Option.some.inj hm]
          exact hleast.1.1
        · rw [List.getLastD_concat]
          exact hnext
      · obtain ⟨hnext, hids⟩ := (grown history).kept_of_named hunnamed
        refine ⟨numbers, ?_, hchain, fun _ ↦ (hnumbered hroom).mono hnext hids⟩
        rw [picked_of_named _ hunnamed]
        exact List.append_nil _
    · refine ⟨numbers, ?_, hchain, fun hlt ↦ ?_⟩
      · rw [picked_of_full hroom]
        exact List.append_nil _
      · rcases (grown history).size_insert insertion with hsize | hsize <;> omega

end Graph

end BookmarkGraph
