import BookmarkGraph.Proofs.Graph.Numbering
import BookmarkGraph.Proofs.Builder

/-!
# Ids and vertices correspond one to one

Whatever is inserted, under ids that are given or picked, a vertex is known by its id: looking the
id up finds the place of the vertex and no other, an id that nobody has is not found, and an id that
somebody has is refused. All of this is one invariant, that the index has the places of the vertices
under their ids and nothing else. So a traversal that starts from ids and asks for ids again hands
back what it was given.
-/

namespace BookmarkGraph

namespace Graph

variable {g : Graph} {id : ElementId} {index : VertexIndex}

/-- Some vertex of the graph has the id. -/
def Knows (g : Graph) (id : ElementId) : Prop := ∃ index v, g.vertex index = .ok v ∧ v.id = id

theorem knows_iff_hasId (hg : g.Indexed) : g.Knows id ↔ g.hasId id = true :=
  hg.hasId_iff_vertex.symm

theorem getVertex_eq_ok : g.getVertex id = .ok index ↔ g.find? id = some index := by
  rw [getVertex]
  cases g.find? id <;> simp

theorem getVertex_eq_error : g.getVertex id = .error (.notFound id) ↔ g.find? id = none := by
  rw [getVertex]
  cases g.find? id <;> simp

theorem Knows.exists_getVertex (hg : g.Indexed) (h : g.Knows id) :
    ∃ index, g.getVertex id = .ok index :=
  Graph.exists_getVertex ((knows_iff_hasId hg).mp h)

/-! ## Starting from ids -/

theorem toIdList_ofIds (hg : g.Indexed) {ids : List ElementId} (hids : ∀ id ∈ ids, g.Knows id) :
    ((Query.build g [.ofIds ids]).toIdList g).1 = .ok ids := by
  obtain ⟨indices, hindices⟩ := exists_mapM_eq_ok fun id hid ↦ (hids id hid).exists_getVertex hg
  have hat : ∀ id index, g.getVertex id = .ok index → g.idAt index = id ∧ g.Has index := by
    intro id index hget
    obtain ⟨v, hv, hid⟩ := hg.vertex_of_find? (getVertex_eq_ok.mp hget)
    exact ⟨by rw [idAt_eq hv, hid], v, hv⟩
  have hsource : (Call.ofIds ids).source g = .ok (indices.map .vertex) := by
    rw [Call.source, hindices]
    rfl
  have hhas : ∀ index ∈ indices, g.Has index := by
    intro index hindex
    obtain ⟨id, -, hget⟩ := exists_of_mem_mapM hindices hindex
    exact (hat id index hget).2
  have hback : indices.map g.idAt = ids :=
    (map_of_mapM hindices fun id _ index hget ↦ (hat id index hget).1).trans (List.map_id ids)
  have hanswer := Query.toIdList_of_denote (Query.outcome_build_start hsource [])
    (List.cons_ne_nil _ _) (denote_start g indices) hhas
  rwa [hback] at hanswer

/-- A traversal that is to start from an id that nobody has reports the first such id. -/
theorem toIdList_ofIds_unknown (hg : g.Indexed) {before : List ElementId}
    (hbefore : ∀ known ∈ before, g.Knows known) (hid : g.getVertex id = .error (.notFound id))
    (after : List ElementId) :
    ((Query.build g [.ofIds (before ++ id :: after)]).toIdList g).1 = .error (.notFound id) := by
  have hstart : (Query.empty.call g (.ofIds (before ++ id :: after))).outcome
      = .error (.notFound id) := by
    rw [Query.outcome_call_empty, Call.source,
      mapM_append_error (fun known h ↦ (hbefore known h).exists_getVertex hg) hid]
    rfl
  have hproject : ((Query.build g [.ofIds (before ++ id :: after)]).push .id).outcome
      = .error (.notFound id) := Query.outcome_call_error hstart (.step .id) (g := g)
  rw [Query.toIdList_eq, Query.toList_error hproject]
  rfl

/-! ## The correspondence -/

/-- Vertices are known by their ids, and everything that is asked by id is answered accordingly. -/
structure KnownById (g : Graph) : Prop where
  /-- The index has the place of every vertex under its id, and nothing else. -/
  indexed : ∀ {id index}, g.index.get? id = some index ↔ ∃ v, g.vertex index = .ok v ∧ v.id = id
  /-- It has as many ids as there are vertices. -/
  size : g.index.size = g.vertexCount
  /-- No two vertices have the same id. -/
  unique : ∀ {i j v w}, g.vertex i = .ok v → g.vertex j = .ok w → v.id = w.id → i = j
  /-- Looking an id up finds the place of the vertex that has it. -/
  found : ∀ {id index}, g.getVertex id = .ok index ↔ ∃ v, g.vertex index = .ok v ∧ v.id = id
  /-- An id is not found exactly if no vertex has it. -/
  missed : ∀ {id}, g.getVertex id = .error (.notFound id) ↔ ¬g.Knows id
  /-- A new vertex is refused an id exactly if some vertex has it. -/
  refused : ∀ {label properties id},
    (g.addVertex label properties (some id)).answer = .error (.duplicateId id) ↔ g.Knows id
  /-- A refusal changes nothing. -/
  refusal : ∀ {label properties id}, g.Knows id →
    (g.addVertex label properties (some id)).graph = g
  /-- A traversal that starts from known ids hands them back, repetitions included. -/
  returned : ∀ ids, (∀ id ∈ ids, g.Knows id) →
    ((Query.build g [.ofIds ids]).toIdList g).1 = .ok ids
  /-- Otherwise it reports the first id that no vertex has. -/
  reported : ∀ before id after, (∀ known ∈ before, g.Knows known) → ¬g.Knows id →
    ((Query.build g [.ofIds (before ++ id :: after)]).toIdList g).1 = .error (.notFound id)

theorem Reachable.knownById (h : g.Reachable) : g.KnownById := by
  have hg := h.indexed
  have hfound : ∀ {id index}, g.find? id = some index ↔ ∃ v, g.vertex index = .ok v ∧ v.id = id :=
    hg.find?_eq_some_iff.trans getElem?_ids_eq_some
  have hknown : ∀ {id}, g.hasId id = true ↔ g.Knows id := hg.hasId_iff_vertex
  have hmissed : ∀ {id}, g.getVertex id = .error (.notFound id) ↔ ¬g.Knows id := by
    intro id
    rw [getVertex_eq_error, ← hasId_eq_false, ← hknown, Bool.not_eq_true]
  refine ⟨hfound, hg.size_index, hg.index_inj, getVertex_eq_ok.trans hfound, hmissed, ?_, ?_,
    fun _ ↦ toIdList_ofIds hg,
    fun _ _ after hbefore hid ↦ toIdList_ofIds_unknown hg hbefore (hmissed.mpr hid) after⟩
  · intro label properties id
    rw [← hknown, Graph.addVertex]
    split
    · rename_i htaken
      exact ⟨fun _ ↦ htaken, fun _ ↦ rfl⟩
    · rename_i hfree
      refine ⟨fun hrefused ↦ ?_, fun htaken ↦ absurd htaken hfree⟩
      rw [appendVertex] at hrefused
      split at hrefused <;> cases hrefused
  · intro label properties id hid
    rw [Graph.addVertex, if_pos (hknown.mpr hid)]

/-- **Ids and vertices correspond one to one.** Take a graph that grew by any history of insertions.
Its index agrees with its vertices, so these are known by their ids. The ids that the graph picked
on the way are numbers that ascend from above zero. Whenever the graph is to pick another one, that
is the least number above the last one picked that no vertex has, unless the arena is full: then
none is picked, whatever is inserted. -/
theorem grown_knownById (history : List Insertion) :
    (grown history).KnownById ∧ ∃ numbers : List UInt64,
      pickedFrom .empty history = numbers.map .number ∧ (0 :: numbers).Pairwise (· < ·) ∧
      ((grown history).vertices.size < arenaCapacity → ∀ label properties, ∃ n,
        IsLeast {k | numbers.getLastD 0 < k ∧ ¬(grown history).Knows (.number k)} n ∧
        pickedFrom .empty (history ++ [.vertex label properties none])
          = (numbers ++ [n]).map .number) ∧
      ((grown history).vertices.size = arenaCapacity → ∀ insertion,
        pickedFrom .empty (history ++ [insertion]) = numbers.map .number) := by
  have hreachable := reachable_grown history
  obtain ⟨numbers, hpicked, hchain, hnumbered⟩ := exists_numbers history
  refine ⟨hreachable.knownById, numbers, hpicked, List.isChain_iff_pairwise.mp hchain, ?_, ?_⟩
  · intro hroom label properties
    obtain ⟨n, hleast, hn, -⟩ :=
      (hnumbered hroom).addVertex (size_index_grown history) hroom label properties
    refine ⟨n, ?_, ?_⟩
    · simp only [knows_iff_hasId hreachable.indexed, Bool.not_eq_true]
      exact hleast
    · rw [pickedFrom_append, hpicked, ← grown, hn, List.map_append]
      rfl
  · intro hfull insertion
    have hnone := picked_of_full (Nat.lt_irrefl _ <| hfull ▸ ·) insertion
    rw [pickedFrom_append, hpicked, ← grown, hnone]
    exact List.append_nil _

/-- Numbers are given ahead of the search and behind it, one of them twice, and two edges come in
between. -/
def scattered : List Insertion :=
  [.vertex "n" .empty none, .vertex "n" .empty (some (.number 3)),
    .vertex "n" .empty (some (.number 2)), .edge "e" ⟨0⟩ ⟨1⟩ .empty, .vertex "n" .empty none,
    .vertex "n" .empty (some (.name "5")), .vertex "n" .empty (some (.number 4)),
    .vertex "n" .empty (some (.number 18446744073709551615)),
    .edgeBetween "e" (.number 4) (.number 7) .empty, .vertex "n" .empty none]

/-- The second number that is picked skips two that were given, the third one skips none, for a name
that reads like a number is not one. -/
theorem grown_knownById_scattered :
    (grown scattered).KnownById ∧
      pickedFrom .empty scattered = [.number 1, .number 4, .number 5] ∧
      IsLeast {k : UInt64 | 5 < k ∧ ¬(grown scattered).Knows (.number k)} 6 ∧
      ((Query.build (grown scattered) [.ofIds [.number 4, .name "5", .number 4]]).toIdList
        (grown scattered)).1 = .ok [.number 4, .name "5", .number 4] ∧
      ((Query.build (grown scattered) [.ofIds [.number 4, .name "4", .name "6"]]).toIdList
        (grown scattered)).1 = .error (.notFound (.name "4")) := by
  obtain ⟨hknown, numbers, hpicked, -, hroom, -⟩ := grown_knownById scattered
  have hinj : Function.Injective ElementId.number := fun _ _ ↦ ElementId.number.inj
  have hpast : pickedFrom .empty scattered = [1, 4, 5].map .number := by decide +kernel
  have hnumbers : numbers = [1, 4, 5] := hinj.list_map (hpicked.symm.trans hpast)
  subst hnumbers
  have hsize : (grown scattered).vertices.size < arenaCapacity := by decide +kernel
  obtain ⟨n, hleast, hnext⟩ := hroom hsize "n" .empty
  have hsix : pickedFrom .empty (scattered ++ [.vertex "n" .empty none])
      = ([1, 4, 5] ++ [(6 : UInt64)]).map .number := by decide +kernel
  obtain rfl : n = 6 := by simpa using hinj.list_map (hnext.symm.trans hsix)
  have hids : ∀ id, (grown scattered).Knows id ↔ (grown scattered).hasId id = true :=
    fun _ ↦ knows_iff_hasId (reachable_grown scattered).indexed
  refine ⟨hknown, hpast, hleast, hknown.returned _ ?_,
    hknown.reported [.number 4] (.name "4") [.name "6"] ?_ ?_⟩
  · simp only [hids]
    decide +kernel
  · simp only [hids]
    decide +kernel
  · rw [hids]
    decide +kernel

end Graph

end BookmarkGraph
