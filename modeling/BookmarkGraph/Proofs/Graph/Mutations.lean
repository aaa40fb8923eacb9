import BookmarkGraph.Graph.Basic
import BookmarkGraph.Proofs.Table.Updates
import Mathlib.Data.List.Nodup
import Mathlib.Data.List.Perm.Subperm

/-!
# What a mutation can do

A mutation appends a vertex and enters its id into the index, registers an edge, or changes nothing
that a graph holds. `Reachable.induct` reduces properties of all graphs that mutations lead to,
whether the mutations succeed or fail, to these cases.

## New ids

An id that a vertex is given is refused if the index has it, and a number that the graph picks is
searched for until the index does not. The search is bounded by the size of the index. It cannot run
out on a number that is taken: then one more number than there are ids would be taken. So the id of
a new vertex is new to the index, as long as the index has fewer ids than there are numbers.
-/

namespace BookmarkGraph.Graph

/-- The graphs that sequences of mutations lead to, whether the mutations succeed or fail. -/
inductive Reachable : Graph → Prop
  | empty : Reachable .empty
  | addVertex {g : Graph} (label : String) (properties : Properties) (id : Option ElementId) :
    Reachable g → Reachable (g.addVertex label properties id).graph
  | addEdge {g : Graph} (label : String) (source target : VertexIndex) (properties : Properties) :
    Reachable g → Reachable (g.addEdge label source target properties).graph
  | addEdgeBetween {g : Graph} (label : String) (source target : ElementId)
    (properties : Properties) :
    Reachable g → Reachable (g.addEdgeBetween label source target properties).graph

/-- The graph with one more vertex, which has no edges yet. -/
def pushVertex (g : Graph) (id : ElementId) (label : String) (properties : Properties) : Graph :=
  { g with
    index := g.index.update id fun _ ↦ ⟨UInt32.ofNat g.vertices.size⟩
    vertices := g.vertices.push ⟨id, label, properties, .empty, .empty⟩ }

/-- The graph with one more edge, filed at both of its ends. -/
def register (g : Graph) (label : String) (source target : VertexIndex)
    (properties : Properties) : Graph where
  vertices :=
    (g.vertices.modify source.position.toNat fun v ↦
      { v with outgoing := v.outgoing.push label ⟨UInt32.ofNat g.edges.size⟩ }).modify
        target.position.toNat fun v ↦
          { v with incoming := v.incoming.push label ⟨UInt32.ofNat g.edges.size⟩ }
  edges := g.edges.push
    ⟨.number (UInt64.ofNat (g.edges.size + 1)), label, properties, source, target⟩
  index := g.index
  nextNumber := g.nextNumber

/-! ## The search for a free number -/

theorem add_one_add_ofNat (number : UInt64) (j : Nat) :
    number + 1 + UInt64.ofNat j = number + UInt64.ofNat (j + 1) := by
  rw [UInt64.add_assoc, UInt64.add_comm 1, ← UInt64.ofNat_one, ← UInt64.ofNat_add]

/-- The search passes candidates that are taken, one after the other, and stops early only at one
that is free. -/
theorem freeNumber_eq (g : Graph) (candidate : UInt64) (steps : Nat) :
    ∃ i ≤ steps, g.freeNumber candidate steps = candidate + UInt64.ofNat i ∧
      (∀ j < i, g.hasId (.number (candidate + UInt64.ofNat j)) = true) ∧
      (i < steps → g.hasId (.number (candidate + UInt64.ofNat i)) = false) := by
  have hzero : ∀ c : UInt64, c + UInt64.ofNat 0 = c := UInt64.add_zero
  induction steps generalizing candidate with
  | zero =>
    exact ⟨0, Nat.le_refl 0, (hzero candidate).symm, fun j hj ↦ absurd hj (Nat.not_lt_zero j),
      fun h ↦ absurd h (Nat.lt_irrefl 0)⟩
  | succ steps ih =>
    rw [freeNumber]
    split
    · rename_i htaken
      obtain ⟨i, hi, heq, hbefore, hstop⟩ := ih (candidate + 1)
      simp only [add_one_add_ofNat] at heq hbefore hstop
      refine ⟨i + 1, Nat.succ_le_succ hi, heq, fun j hj ↦ ?_,
        fun h ↦ hstop (Nat.lt_of_succ_lt_succ h)⟩
      cases j with
      | zero => rwa [hzero]
      | succ j => exact hbefore j (Nat.lt_of_succ_lt_succ hj)
    · rename_i hfree
      refine ⟨0, Nat.zero_le _, (hzero candidate).symm, fun j hj ↦ absurd hj (Nat.not_lt_zero j),
        fun _ ↦ ?_⟩
      rwa [hzero, ← Bool.not_eq_true]

/-- No more numbers in a row are taken than the index has ids. -/
theorem le_size_of_hasId {g : Graph} (candidate : UInt64) {n : Nat} (hn : n ≤ UInt64.size)
    (h : ∀ i < n, g.hasId (.number (candidate + UInt64.ofNat i)) = true) : n ≤ g.index.size := by
  have hnodup : ((List.range n).map fun i ↦
      ElementId.number (candidate + UInt64.ofNat i)).Nodup := by
    refine List.Nodup.map_on (fun i hi j hj heq ↦ ?_) List.nodup_range
    have hi' := List.mem_range.mp hi
    have hj' := List.mem_range.mp hj
    have hsum := UInt64.add_right_inj _ |>.mp (ElementId.number.inj heq)
    rw [← UInt64.toNat_inj, UInt64.toNat_ofNat_of_lt' (by omega),
      UInt64.toNat_ofNat_of_lt' (by omega)] at hsum
    exact hsum
  have hsubset : ((List.range n).map fun i ↦
      ElementId.number (candidate + UInt64.ofNat i)) ⊆ g.index.keys := by
    intro id hid
    obtain ⟨i, hi, rfl⟩ := List.mem_map.mp hid
    exact Table.contains_eq_true.mp (h i (List.mem_range.mp hi))
  have hlength := (List.subperm_of_subset hnodup hsubset).length_le
  rwa [List.length_map, List.length_range, Table.length_keys] at hlength

/-- The search ends on the first number from the candidate on that the index does not have. -/
theorem exists_freeNumber {g : Graph} (hsize : g.index.size < UInt64.size) (candidate : UInt64) :
    ∃ i ≤ g.index.size, g.freeNumber candidate g.index.size = candidate + UInt64.ofNat i ∧
      (∀ j < i, g.hasId (.number (candidate + UInt64.ofNat j)) = true) ∧
      g.hasId (.number (candidate + UInt64.ofNat i)) = false := by
  obtain ⟨i, hi, heq, hbefore, hstop⟩ := g.freeNumber_eq candidate g.index.size
  refine ⟨i, hi, heq, hbefore, Bool.eq_false_iff.mpr fun htaken ↦ ?_⟩
  -- a search that is out of steps on a taken number has met more of them than there are ids
  have hlast : i = g.index.size :=
    Nat.le_antisymm hi (Nat.not_lt.mp fun h ↦ Bool.eq_false_iff.mp (hstop h) htaken)
  have hall : ∀ j < i + 1, g.hasId (.number (candidate + UInt64.ofNat j)) = true := by
    intro j hj
    rcases Nat.lt_succ_iff_lt_or_eq.mp hj with hlt | rfl
    · exact hbefore j hlt
    · exact htaken
  have hcount := le_size_of_hasId candidate (by omega) hall
  omega

/-! ## One mutation -/

theorem addVertex_named (g : Graph) (label : String) (properties : Properties) (id : ElementId) :
    (∃ e, g.addVertex label properties (some id) = ⟨.error e, g⟩) ∨
      g.hasId id = false ∧ g.vertices.size < arenaCapacity ∧
        g.addVertex label properties (some id)
          = ⟨.ok ⟨UInt32.ofNat g.vertices.size⟩, g.pushVertex id label properties⟩ := by
  rw [addVertex]
  split
  · exact .inl ⟨_, rfl⟩
  · rename_i hnew
    rw [appendVertex]
    split
    · rename_i hroom
      exact .inr ⟨Bool.eq_false_iff.mpr hnew, hroom, rfl⟩
    · exact .inl ⟨_, rfl⟩

theorem addVertex_unnamed (g : Graph) (label : String) (properties : Properties) :
    g.addVertex label properties none
      = if g.vertices.size < arenaCapacity then
          ⟨.ok ⟨UInt32.ofNat g.vertices.size⟩,
            { g.pushVertex (.number (g.freeNumber g.nextNumber g.index.size)) label properties with
              nextNumber := g.freeNumber g.nextNumber g.index.size + 1 }⟩
        else
          ⟨.error (.invalidState .arenaFull),
            { g with nextNumber := g.freeNumber g.nextNumber g.index.size + 1 }⟩ := rfl

/-- A vertex is appended under a new id, or arenas and index stay as they are. -/
theorem addVertex_graph (g : Graph) (label : String) (properties : Properties)
    (id : Option ElementId) :
    (∃ number, (g.addVertex label properties id).graph = { g with nextNumber := number }) ∨
      g.vertices.size < arenaCapacity ∧ ∃ number newId,
        (g.index.size < UInt64.size → g.hasId newId = false) ∧
        (g.addVertex label properties id).graph
          = { g.pushVertex newId label properties with nextNumber := number } := by
  cases id with
  | none =>
    rw [addVertex_unnamed]
    split
    · rename_i hroom
      refine .inr ⟨hroom, _, _, fun hsize ↦ ?_, rfl⟩
      obtain ⟨i, -, heq, -, hfree⟩ := exists_freeNumber hsize g.nextNumber
      rwa [heq]
    · exact .inl ⟨_, rfl⟩
  | some id =>
    rcases g.addVertex_named label properties id with ⟨e, heq⟩ | ⟨hnew, hroom, heq⟩
    · rw [heq]
      exact .inl ⟨g.nextNumber, rfl⟩
    · rw [heq]
      exact .inr ⟨hroom, g.nextNumber, id, fun _ ↦ hnew, rfl⟩

theorem addEdge_eq (g : Graph) (label : String) (source target : VertexIndex)
    (properties : Properties) :
    (∃ e, g.addEdge label source target properties = ⟨.error e, g⟩) ∨
      source.position.toNat < g.vertices.size ∧ target.position.toNat < g.vertices.size ∧
        g.edges.size < arenaCapacity ∧
        g.addEdge label source target properties =
          ⟨.ok ⟨UInt32.ofNat g.edges.size⟩, g.register label source target properties⟩ := by
  rw [addEdge]
  split
  · exact .inl ⟨_, rfl⟩
  · rename_i hends
    rw [Bool.or_eq_true, decide_eq_true_eq, decide_eq_true_eq, not_or, Nat.not_le,
      Nat.not_le] at hends
    split
    · rename_i hroom
      exact .inr ⟨hends.1, hends.2, hroom, rfl⟩
    · exact .inl ⟨_, rfl⟩

theorem addEdgeBetween_graph (g : Graph) (label : String) (source target : ElementId)
    (properties : Properties) :
    (g.addEdgeBetween label source target properties).graph = g ∨
      ∃ s t, (g.addEdgeBetween label source target properties).graph
        = (g.addEdge label s t properties).graph := by
  rw [addEdgeBetween]
  split
  · exact .inl rfl
  · split
    · exact .inl rfl
    · exact .inr ⟨_, _, rfl⟩

/-- **Induction over mutations.** What holds of the empty graph and is kept by appending a vertex
under a new id, by registering an edge and by using up a number holds of every reachable graph. -/
theorem Reachable.induct {P : Graph → Prop} (hempty : P .empty)
    (hnumber : ∀ g number, P g → P { g with nextNumber := number })
    (hvertex : ∀ g id label properties, g.vertices.size < arenaCapacity →
      (g.index.size < UInt64.size → g.hasId id = false) → P g →
      P (g.pushVertex id label properties))
    (hedge : ∀ g label source target properties, source.position.toNat < g.vertices.size →
      target.position.toNat < g.vertices.size → g.edges.size < arenaCapacity → P g →
      P (g.register label source target properties))
    {g : Graph} (h : g.Reachable) : P g := by
  have hadd : ∀ g label source target properties, P g →
      P (g.addEdge label source target properties).graph := by
    intro g label source target properties hg
    rcases addEdge_eq g label source target properties with ⟨e, heq⟩ | ⟨hs, ht, hroom, heq⟩
    · rw [heq]
      exact hg
    · rw [heq]
      exact hedge g label source target properties hs ht hroom hg
  induction h with
  | empty => exact hempty
  | @addVertex g label properties id _ ih =>
    rcases addVertex_graph g label properties id with
      ⟨number, heq⟩ | ⟨hroom, number, newId, hnew, heq⟩
    · rw [heq]
      exact hnumber g number ih
    · rw [heq]
      exact hnumber _ number (hvertex g newId label properties hroom hnew ih)
  | addEdge label source target properties _ ih => exact hadd _ _ _ _ _ ih
  | @addEdgeBetween g label source target properties _ ih =>
    rcases addEdgeBetween_graph g label source target properties with heq | ⟨s, t, heq⟩
    · rw [heq]
      exact ih
    · rw [heq]
      exact hadd _ _ _ _ _ ih

end BookmarkGraph.Graph
