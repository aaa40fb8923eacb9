import BookmarkGraph.Proofs.Enumeration
import BookmarkGraph.Proofs.Pipe.LookAhead
import BookmarkGraph.Proofs.Recommend.Visibility

/-!
# Refused insertions

An insertion is refused when an id is taken or unknown, when an end of an edge is out of range, or
when an arena is full. All checks come before the first change to arenas, edge lists and index, with
one exception: a full arena uses up the number that the graph has picked for a vertex, and the
search goes on behind it.

Nobody gets to see this. Apart from insertions nothing reads where the search starts, `renumbered`,
and an arena that is full stays full, so no insertion picks a number again. A graph that has refused
an insertion and one that was never asked are therefore in lockstep for ever: they differ in the
start of the search at most, and only if there is no room for another vertex.
-/

namespace BookmarkGraph

namespace Graph

/-- What an insertion answers: the new element, or why there is none. -/
def answerTo (g : Graph) : Insertion → Except GraphError Element
  | .vertex label properties id => (g.addVertex label properties id).answer.map .vertex
  | .edge label source target properties =>
    (g.addEdge label source target properties).answer.map .edge
  | .edgeBetween label source target properties =>
    (g.addEdgeBetween label source target properties).answer.map .edge

def answersTo (g : Graph) : List Insertion → List (Except GraphError Element)
  | [] => []
  | insertion :: rest => g.answerTo insertion :: (g.insert insertion).answersTo rest

/-- The graph with another start for the search for numbers. -/
def renumbered (g : Graph) (number : UInt64) : Graph := { g with nextNumber := number }

/-- The graphs hold the same, and every operation that leaves a graph as it is answers the same on
both of them. -/
structure Indistinguishable (g g' : Graph) : Prop where
  /-- The vertices are the same, and so are the edges on their sides. -/
  vertices : g'.vertices = g.vertices
  /-- The edges are the same. -/
  edges : g'.edges = g.edges
  /-- The index has the same ids at the same places. -/
  index : g'.index = g.index
  /-- Ids are found at the same places. -/
  getVertex : g'.getVertex = g.getVertex
  /-- The same vertices are at all indices. -/
  vertex : g'.vertex = g.vertex
  /-- The same edges are at all indices. -/
  edge : g'.edge = g.edge
  /-- Vertices have the same edges on their sides. -/
  edgesOf : g'.edgesOf = g.edgesOf
  /-- The same vertices are listed. -/
  vertexIndices : g'.vertexIndices = g.vertexIndices
  /-- The same vertices are listed under a label. -/
  verticesWithLabel : g'.verticesWithLabel = g.verticesWithLabel
  /-- The counts are the same. -/
  stats : g'.stats = g.stats
  /-- Elements have the same ids. -/
  idOf : g'.idOf = g.idOf
  /-- Elements have the same labels. -/
  labelOf : g'.labelOf = g.labelOf
  /-- Elements have the same properties. -/
  propertiesOf : g'.propertiesOf = g.propertiesOf
  /-- A pipeline in any state hands the same over, shows the same and is left in the same state. -/
  next : Pipeline.next g' = Pipeline.next g
  /-- A pipeline in any state is asked ahead with the same outcome. -/
  hasNext : Pipeline.hasNext g' = Pipeline.hasNext g
  /-- The same is taken from a pipeline in any state. -/
  take : Pipeline.take g' = Pipeline.take g
  /-- A pipeline in any state is drained with the same outcome. -/
  toList : Pipeline.toList g' = Pipeline.toList g
  /-- A pipeline in any state is counted with the same outcome. -/
  count : Pipeline.count g' = Pipeline.count g
  /-- A pipeline in any state is run for its observers with the same outcome. -/
  iterate : Pipeline.iterate g' = Pipeline.iterate g
  /-- The same queries are built. -/
  build : Query.build g' = Query.build g
  /-- Queries deliver and show the same elements. -/
  queryList : Query.toList g' = Query.toList g
  /-- Queries deliver the same ids. -/
  queryIds : Query.toIdList g' = Query.toIdList g
  /-- Queries deliver as many elements. -/
  queryCount : Query.count g' = Query.count g
  /-- Queries show the same to their observers. -/
  queryIterate : Query.iterate g' = Query.iterate g
  /-- The strategies start from the same preparations and score alike. -/
  create : ∀ name config, Registry.builtins.create name ⟨g', config⟩
    = Registry.builtins.create name ⟨g, config⟩

end Graph

/-! ## Traversals do not pick numbers -/

theorem Pulls.renumbered {g : Graph} (number : UInt64) {pipes : List Pipe} {origin : Origin}
    {r : Pulled} (h : Pulls g pipes origin r) : Pulls (g.renumbered number) pipes origin r := by
  induction h with
  | origin origin => exact .origin origin
  | buffered stage x rest origin => exact .buffered stage x rest origin
  | exhausted stage rest origin => exact .exhausted stage rest origin
  | finish rest origin hpoll => exact .finish rest origin hpoll
  | give rest origin hpoll => exact .give rest origin hpoll
  | ended hpoll _ ih => exact .ended hpoll ih
  | failed hpoll _ ih => exact .failed hpoll ih
  | answered hpoll _ hreceive ih => exact .answered hpoll ih hreceive
  | again hpoll _ hreceive _ ih ihagain => exact .again hpoll ih hreceive ihagain

section Renumbered

variable (g : Graph) (number : UInt64)

namespace Pipeline

theorem pullEnd_renumbered : pullEnd (g.renumbered number) = pullEnd g := by
  funext p
  simp only [pullEnd, ((pulls_pull g p.pipes p.origin).renumbered number).pull_eq]

theorem peekEnd_renumbered : peekEnd (g.renumbered number) = peekEnd g := by
  funext p
  simp only [peekEnd, pullEnd_renumbered]

theorem drain_renumbered : drain (g.renumbered number) = drain g := by
  funext p
  induction p using drain.induct g with
  | case1 p peeked e hasked | case2 p peeked hasked =>
    rw [drain_eq, drain_eq g, peekEnd_renumbered]
    simp only [show (p.peekEnd g).answer = _ from hasked]
  | case3 p peeked hasked run e htaken | case4 p peeked hasked run htaken =>
    rw [drain_eq, drain_eq g, peekEnd_renumbered, pullEnd_renumbered]
    simp only [show (p.peekEnd g).answer = _ from hasked,
      show ((p.peekEnd g).pipeline.pullEnd g).answer = _ from htaken]
  | case5 p peeked hasked run x htaken ih =>
    rw [drain_eq, drain_eq g, peekEnd_renumbered, pullEnd_renumbered]
    dsimp only
    rw [show ((p.peekEnd g).pipeline.pullEnd g).pipeline.drain (g.renumbered number) = _ from ih]

theorem drainCount_renumbered : drainCount (g.renumbered number) = drainCount g := by
  funext p
  induction p using drainCount.induct g with
  | case1 p run e htaken | case2 p run htaken =>
    rw [drainCount_eq, drainCount_eq g, pullEnd_renumbered]
    simp only [show (p.pullEnd g).answer = _ from htaken]
  | case3 p run x htaken ih =>
    rw [drainCount_eq, drainCount_eq g, pullEnd_renumbered]
    dsimp only
    rw [show (p.pullEnd g).pipeline.drainCount (g.renumbered number) = _ from ih]

theorem next_renumbered : next (g.renumbered number) = next g := by
  funext p
  rw [next, next, pullEnd_renumbered]

theorem take_renumbered : take (g.renumbered number) = take g := by
  funext p n
  induction n generalizing p with
  | zero => rfl
  | succ n ih => simp only [take, next_renumbered, ih]

theorem hasNext_renumbered : hasNext (g.renumbered number) = hasNext g := by
  funext p
  rw [hasNext, hasNext, peekEnd_renumbered]

theorem toList_renumbered : toList (g.renumbered number) = toList g := by
  funext p
  rw [toList, toList, drain_renumbered]

theorem count_renumbered : count (g.renumbered number) = count g := by
  funext p
  rw [count, count, drainCount_renumbered]

theorem iterate_renumbered : iterate (g.renumbered number) = iterate g := by
  funext p
  rw [iterate, iterate, count_renumbered]

end Pipeline

namespace Query

theorem toList_renumbered : toList (g.renumbered number) = toList g := by
  funext q
  rw [toList, toList, Pipeline.toList_renumbered]

theorem toIdList_renumbered : toIdList (g.renumbered number) = toIdList g := by
  funext q
  rw [toIdList, toIdList, toList_renumbered]

theorem count_renumbered : count (g.renumbered number) = count g := by
  funext q
  rw [count, count, Pipeline.count_renumbered]

theorem iterate_renumbered : iterate (g.renumbered number) = iterate g := by
  funext q
  rw [iterate, iterate, Pipeline.iterate_renumbered]

end Query

namespace Domain

theorem profileIds_renumbered : profileIds (g.renumbered number) = profileIds g := by
  rw [profileIds, profileIds, Query.toIdList_renumbered]
  rfl

theorem targetIds_renumbered : targetIds (g.renumbered number) = targetIds g := by
  funext id label
  rw [targetIds, targetIds, Query.toIdList_renumbered]
  rfl

end Domain

theorem Collaborative.scoreProfile_renumbered :
    scoreProfile (g.renumbered number) = scoreProfile g := by
  funext catalog weighting profile
  simp only [scoreProfile, ownIds, similarIds, candidates, Domain.agenciesOf,
    Domain.targetIds_renumbered, Query.toIdList_renumbered, Query.toList_renumbered]
  rfl

theorem Popularity.popular_renumbered : popular (g.renumbered number) = popular g := by
  funext catalog
  simp only [popular, bookmarkCount, Query.count_renumbered]
  rfl

theorem Popularity.scoreProfile_renumbered :
    scoreProfile (g.renumbered number) = scoreProfile g := by
  funext catalog ranked topN profile
  simp only [scoreProfile, Domain.agenciesOf, Domain.targetIds_renumbered]

theorem Registry.create_renumbered (name : String) (config : Config) :
    builtins.create name ⟨g.renumbered number, config⟩ = builtins.create name ⟨g, config⟩ := by
  have hcatalog : Catalog.build (g.renumbered number) = Catalog.build g := rfl
  rw [create_builtins_eq, create_builtins_eq]
  simp only [Collaborative.strategy, Popularity.strategy, Domain.profileIds_renumbered, hcatalog,
    Collaborative.scoreProfile_renumbered, Popularity.popular_renumbered,
    Popularity.scoreProfile_renumbered]

/-- Where the search for numbers starts is seen by insertions only. -/
theorem Graph.indistinguishable_renumbered : g.Indistinguishable (g.renumbered number) where
  vertices := rfl
  edges := rfl
  index := rfl
  getVertex := rfl
  vertex := rfl
  edge := rfl
  edgesOf := rfl
  vertexIndices := rfl
  verticesWithLabel := rfl
  stats := rfl
  idOf := rfl
  labelOf := rfl
  propertiesOf := rfl
  next := Pipeline.next_renumbered g number
  hasNext := Pipeline.hasNext_renumbered g number
  take := Pipeline.take_renumbered g number
  toList := Pipeline.toList_renumbered g number
  count := Pipeline.count_renumbered g number
  iterate := Pipeline.iterate_renumbered g number
  build := rfl
  queryList := Query.toList_renumbered g number
  queryIds := Query.toIdList_renumbered g number
  queryCount := Query.count_renumbered g number
  queryIterate := Query.iterate_renumbered g number
  create := Registry.create_renumbered g number

end Renumbered

namespace Graph

variable {g : Graph}

/-! ## Lockstep -/

theorem addVertex_none_of_full (hfull : ¬g.vertices.size < arenaCapacity) (label : String)
    (properties : Properties) : g.addVertex label properties none
      = ⟨.error (.invalidState .arenaFull),
        g.renumbered (g.freeNumber g.nextNumber g.index.size + 1)⟩ := if_neg hfull

theorem addVertex_some_of_full (hfull : ¬g.vertices.size < arenaCapacity) (label : String)
    (properties : Properties) (id : ElementId) : g.addVertex label properties (some id)
      = ⟨.error (if g.hasId id then .duplicateId id else .invalidState .arenaFull), g⟩ := by
  rw [addVertex]
  split
  · rfl
  · exact if_neg hfull

theorem addEdge_renumbered (g : Graph) (number : UInt64) (label : String)
    (source target : VertexIndex) (properties : Properties) :
    (g.renumbered number).addEdge label source target properties
      = ⟨(g.addEdge label source target properties).answer,
        (g.addEdge label source target properties).graph.renumbered number⟩ := by
  by_cases hends : g.vertices.size ≤ source.position.toNat
      || g.vertices.size ≤ target.position.toNat
  · have hrefused : ∀ n, (g.renumbered n).addEdge label source target properties
        = ⟨.error (.invalidState (.endpointsMissing source target)), g.renumbered n⟩ :=
      fun _ ↦ if_pos hends
    rw [hrefused, show g.addEdge label source target properties = _ from hrefused g.nextNumber]
    rfl
  · have hchecked : ∀ n, (g.renumbered n).addEdge label source target properties
        = if g.edges.size < arenaCapacity then
            ⟨.ok ⟨UInt32.ofNat g.edges.size⟩,
              (g.register label source target properties).renumbered n⟩
          else ⟨.error (.invalidState .arenaFull), g.renumbered n⟩ := fun _ ↦ if_neg hends
    rw [hchecked, show g.addEdge label source target properties = _ from hchecked g.nextNumber]
    split <;> rfl

theorem insert_renumbered (hfull : ¬g.vertices.size < arenaCapacity) (number : UInt64)
    (insertion : Insertion) :
    (g.renumbered number).answerTo insertion = g.answerTo insertion ∧
      ∃ number', (g.renumbered number).insert insertion
        = (g.insert insertion).renumbered number' := by
  have hfull' : ¬(g.renumbered number).vertices.size < arenaCapacity := hfull
  cases insertion with
  | vertex label properties id =>
    rw [answerTo, answerTo, insert, insert]
    cases id with
    | none =>
      rw [addVertex_none_of_full hfull, addVertex_none_of_full hfull']
      exact ⟨rfl, _, rfl⟩
    | some id =>
      rw [addVertex_some_of_full hfull, addVertex_some_of_full hfull']
      exact ⟨rfl, number, rfl⟩
  | edge label source target properties =>
    rw [answerTo, answerTo, insert, insert, addEdge_renumbered]
    exact ⟨rfl, number, rfl⟩
  | edgeBetween label source target properties =>
    have hfind : ∀ id, (g.renumbered number).getVertex id = g.getVertex id := fun _ ↦ rfl
    rw [answerTo, answerTo, insert, insert, addEdgeBetween, addEdgeBetween, hfind, hfind]
    cases g.getVertex source with
    | error e => exact ⟨rfl, number, rfl⟩
    | ok s =>
      cases g.getVertex target with
      | error e => exact ⟨rfl, number, rfl⟩
      | ok t =>
        dsimp only
        rw [addEdge_renumbered]
        exact ⟨rfl, number, rfl⟩

/-- From a full arena on, two graphs that differ in the start of the search stay in lockstep. -/
theorem insertAll_renumbered (hfull : ¬g.vertices.size < arenaCapacity) (number : UInt64)
    (history : List Insertion) :
    (g.renumbered number).answersTo history = g.answersTo history ∧
      ∃ number', history.foldl insert (g.renumbered number)
        = (history.foldl insert g).renumbered number' := by
  induction history generalizing g number with
  | nil => exact ⟨rfl, number, rfl⟩
  | cons insertion history ih =>
    obtain ⟨hanswer, number', hinsert⟩ := insert_renumbered hfull number insertion
    have hstill : ¬(g.insert insertion).vertices.size < arenaCapacity := by
      rcases g.size_insert insertion with hsize | hsize <;> omega
    obtain ⟨hanswers, hgraph⟩ := ih hstill number'
    rw [answersTo, answersTo, List.foldl_cons, List.foldl_cons, hanswer, hinsert, hanswers]
    exact ⟨rfl, hgraph⟩

/-- A refusal changes nothing, unless the arena is full and a number was picked. -/
theorem insert_of_refused {insertion : Insertion} {e : GraphError}
    (h : g.answerTo insertion = .error e) : g.insert insertion = g ∨
      ¬g.vertices.size < arenaCapacity ∧ ∃ number, g.insert insertion = g.renumbered number := by
  have hedge : ∀ {label source target properties},
      (g.addEdge label source target properties).answer.map Element.edge = .error e →
        (g.addEdge label source target properties).graph = g := by
    intro label source target properties h
    rcases g.addEdge_eq label source target properties with ⟨e, heq⟩ | ⟨-, -, -, heq⟩
    · rw [heq]
    · rw [heq] at h
      cases h
  cases insertion with
  | vertex label properties id =>
    rw [answerTo] at h
    rw [insert]
    cases id with
    | none =>
      by_cases hroom : g.vertices.size < arenaCapacity
      · rw [addVertex_unnamed, if_pos hroom] at h
        cases h
      · rw [addVertex_none_of_full hroom]
        exact .inr ⟨hroom, _, rfl⟩
    | some id =>
      rcases g.addVertex_named label properties id with ⟨e, heq⟩ | ⟨-, -, heq⟩
      · rw [heq]
        exact .inl rfl
      · rw [heq] at h
        cases h
  | edge label source target properties => exact .inl (hedge h)
  | edgeBetween label source target properties =>
    left
    rw [answerTo, addEdgeBetween] at h
    rw [insert, addEdgeBetween]
    cases hs : g.getVertex source with
    | error e => rfl
    | ok s =>
      rw [hs] at h
      cases ht : g.getVertex target with
      | error e => rfl
      | ok t =>
        rw [ht] at h
        exact hedge h

/-- **A refused insertion cannot be noticed.** Whatever an insertion is refused for, the graph that
it leaves behind is indistinguishable from the graph before. Whatever is inserted later is answered
as if the refused insertion had not been tried, and the graphs stay indistinguishable. -/
theorem refusal_unobservable {insertion : Insertion} {e : GraphError}
    (h : g.answerTo insertion = .error e) :
    g.Indistinguishable (g.insert insertion) ∧
      ∀ later, (g.insert insertion).answersTo later = g.answersTo later ∧
        (later.foldl insert g).Indistinguishable (later.foldl insert (g.insert insertion)) := by
  rcases insert_of_refused h with heq | ⟨hfull, number, heq⟩
  · rw [heq]
    exact ⟨g.indistinguishable_renumbered g.nextNumber, fun later ↦
      ⟨rfl, indistinguishable_renumbered _ (later.foldl insert g).nextNumber⟩⟩
  · rw [heq]
    refine ⟨g.indistinguishable_renumbered number, fun later ↦ ?_⟩
    obtain ⟨hanswers, number', hgraph⟩ := insertAll_renumbered hfull number later
    rw [hgraph]
    exact ⟨hanswers, indistinguishable_renumbered _ number'⟩

/-- A full arena does not stay as it is when it refuses a vertex that the graph is to name. -/
theorem insert_ne_of_full (hg : g.Indexed) (hfull : g.vertices.size = arenaCapacity)
    (label : String) (properties : Properties) :
    g.insert (.vertex label properties none) ≠ g := by
  intro heq
  have hcapacity : arenaCapacity + 1 < UInt64.size := by decide
  have hsize := hg.size_index
  obtain ⟨i, hi, hnumber, -⟩ := exists_freeNumber (g := g) (by omega) g.nextNumber
  rw [insert, addVertex_none_of_full (Nat.lt_irrefl _ <| hfull ▸ ·), hnumber] at heq
  have hnext : g.nextNumber + UInt64.ofNat i + 1 = g.nextNumber := congrArg nextNumber heq
  have hnat := congrArg UInt64.toNat hnext
  rw [UInt64.toNat_add, UInt64.toNat_add, UInt64.toNat_ofNat_of_lt' (by omega)] at hnat
  have hlt := UInt64.toNat_lt g.nextNumber
  have hword : UInt64.size = 2 ^ 64 := rfl
  have hone : (1 : UInt64).toNat = 1 := rfl
  omega

/-- Of the two refusals, for a full arena and for an end out of range, the first one leaves another
graph behind. -/
theorem refusal_unobservable_filled :
    (filled arenaCapacity).answerTo (.vertex "n" .empty none)
        = .error (.invalidState .arenaFull) ∧
      (filled arenaCapacity).insert (.vertex "n" .empty none) ≠ filled arenaCapacity ∧
      (filled arenaCapacity).Indistinguishable
        ((filled arenaCapacity).insert (.vertex "n" .empty none)) ∧
      (∀ later, ((filled arenaCapacity).insert (.vertex "n" .empty none)).answersTo later
        = (filled arenaCapacity).answersTo later) ∧
      assorted.answerTo (.edge "owns" ⟨0⟩ ⟨3⟩ .empty)
        = .error (.invalidState (.endpointsMissing ⟨0⟩ ⟨3⟩)) ∧
      assorted.Indistinguishable (assorted.insert (.edge "owns" ⟨0⟩ ⟨3⟩ .empty)) := by
  have hsize : (filled arenaCapacity).vertices.size = arenaCapacity := size_filled (Nat.le_refl _)
  have hfull : ¬(filled arenaCapacity).vertices.size < arenaCapacity :=
    (Nat.lt_irrefl _ <| hsize ▸ ·)
  have hrefused : (filled arenaCapacity).answerTo (.vertex "n" .empty none)
      = .error (.invalidState .arenaFull) := by
    rw [answerTo, addVertex_none_of_full hfull]
    rfl
  have hends : assorted.answerTo (.edge "owns" ⟨0⟩ ⟨3⟩ .empty)
      = .error (.invalidState (.endpointsMissing ⟨0⟩ ⟨3⟩)) := by decide +kernel
  obtain ⟨hsame, hlater⟩ := refusal_unobservable hrefused
  have hchanged := insert_ne_of_full (reachable_grown _).indexed hsize "n" .empty
  exact ⟨hrefused, hchanged, hsame, fun later ↦ (hlater later).1, hends,
    (refusal_unobservable hends).1⟩

end Graph

end BookmarkGraph
