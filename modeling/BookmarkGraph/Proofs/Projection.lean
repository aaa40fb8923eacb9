import BookmarkGraph.Proofs.Graph.Ids
import BookmarkGraph.Proofs.Laws.Context
import BookmarkGraph.Proofs.Text.Numeral

/-!
# Ids that survive projection

An internal projection enters the id of a vertex or edge into its property map, and the id of a map
is read off this entry. A name is entered as it is and a number as a signed integer, but a number
above the signed range becomes the text of its digits. A text that some vertex has as its name is
always read as that name, so such a number is lost exactly where a vertex is named by its digits:
the number is *shadowed*. Every other id of a vertex or edge is read back.
-/

namespace BookmarkGraph

namespace Graph

variable {g : Graph} {x : Element} {known : ElementId} {props : Properties}

/-- The element is a vertex or an edge of the graph. -/
def Holds (g : Graph) : Element → Prop
  | .vertex index => ∃ v, g.vertex index = .ok v
  | .edge index => ∃ edge, g.edge index = .ok edge
  | .id _ | .properties _ => False

/-- The number does not fit the signed range, and a vertex is named by its digits. -/
def Shadowed (g : Graph) : ElementId → Prop
  | .number n => signedLimit ≤ n.toNat ∧ .name (toString n.toNat) ∈ g.ids
  | .name _ => False

/-- What an id is read as after it was entered into a map. -/
def readBack (g : Graph) : ElementId → ElementId
  | .number n =>
    if n.toNat < signedLimit then .number n else g.projectedName (toString n.toNat)
  | .name text => g.projectedName text

/-! ## Reading an id off a map -/

theorem idOf_of_get? (h : props.get? "_id" = some (.ofId known)) :
    g.idOf (.properties props) = .ok (some (g.readBack known)) := by
  cases known with
  | name text => rw [idOf, h, Value.ofId, readBack]; rfl
  | number n =>
    rw [Value.ofId] at h
    rw [readBack]
    by_cases hsigned : n.toNat < signedLimit
    · rw [if_pos hsigned] at h
      have hvalue : (Int64.ofNat n.toNat).toInt = n.toNat := Int64.toInt_ofNat_of_lt hsigned
      rw [idOf, h, if_pos hsigned]
      simp only [hvalue, Int.natCast_nonneg, if_true, Int.toNat_natCast, UInt64.ofNat_toNat]
      rfl
    · rw [if_neg hsigned] at h
      rw [idOf, h, if_neg hsigned]
      rfl

theorem projectedName_of_hasId {text : String} (h : g.hasId (.name text) = true) :
    g.projectedName text = .name text := by
  rw [projectedName, if_pos h]

theorem projectedName_digits {n : UInt64} (hlarge : signedLimit ≤ n.toNat)
    (h : ¬g.hasId (.name (toString n.toNat))) :
    g.projectedName (toString n.toNat) = .number n := by
  have hread : Numeral.unsigned64? (toString n.toNat) = some n := by
    rw [Numeral.unsigned64?_toString n.toNat_lt, UInt64.ofNat_toNat]
  rw [projectedName, if_neg h, hread]
  exact if_pos hlarge

theorem readBack_of_shadowed (hg : g.Indexed) (h : g.Shadowed known) :
    g.readBack known = .name known.text := by
  cases known with
  | name text => exact absurd h id
  | number n =>
    rw [readBack, if_neg (Nat.not_lt.mpr h.1)]
    exact projectedName_of_hasId (hg.hasId_eq_true.mpr h.2)

theorem readBack_of_not_shadowed (hg : g.Indexed)
    (hname : ∀ text, known = .name text → known ∈ g.ids) (h : ¬g.Shadowed known) :
    g.readBack known = known := by
  cases known with
  | name text => exact projectedName_of_hasId (hg.hasId_eq_true.mpr (hname text rfl))
  | number n =>
    rw [readBack]
    split
    · rfl
    · rename_i hlarge
      have hlarge := Nat.not_lt.mp hlarge
      exact projectedName_digits hlarge fun hid ↦ h ⟨hlarge, hg.hasId_eq_true.mp hid⟩

/-! ## Vertices and edges -/

theorem holds_of_kind (hx : x.IsOf g) (hkind : x.kind = .vertex ∨ x.kind = .edge) :
    g.Holds x := by
  cases x with
  | vertex index => exact hx
  | edge index => exact hx
  | id _ | properties _ => rcases hkind with h | h <;> cases h

theorem Holds.facts (hx : g.Holds x) : ∃ known props label, g.idOf x = .ok (some known) ∧
    g.propertiesOf x = .ok (some props) ∧ g.labelOf x = .ok (some label) := by
  cases x with
  | vertex index =>
    obtain ⟨v, hv⟩ := hx
    rw [idOf, propertiesOf, labelOf, hv]
    exact ⟨_, _, _, rfl, rfl, rfl⟩
  | edge index =>
    obtain ⟨edge, hedge⟩ := hx
    rw [idOf, propertiesOf, labelOf, hedge]
    exact ⟨_, _, _, rfl, rfl, rfl⟩
  | id _ | properties _ => exact absurd hx id

theorem Holds.project (hx : g.Holds x) : ∃ known props, g.idOf x = .ok (some known) ∧
    ElementStep.project g true x = .ok props ∧ props.get? "_id" = some (.ofId known) := by
  obtain ⟨known, props, label, hid, hprops, hlabel⟩ := hx.facts
  refine ⟨known, (props.insert "_id" (.ofId known)).insert "_label" (.text label), hid, ?_, ?_⟩
  · rw [ElementStep.project, hprops, hid, hlabel]
    rfl
  · rw [Properties.get?_insert, if_neg (by decide), Properties.get?_insert, if_pos rfl]

/-- Edges are numbered within the signed range, and the names of vertices are registered. -/
theorem Reachable.idOf_holds (hg : g.Reachable) (hx : g.Holds x)
    (hid : g.idOf x = .ok (some known)) :
    (x.kind = .edge → ¬g.Shadowed known) ∧ ∀ text, known = .name text → known ∈ g.ids := by
  cases x with
  | vertex index =>
    obtain ⟨v, hv⟩ := hx
    rw [idOf, hv] at hid
    obtain rfl : v.id = known := Option.some.inj (Except.ok.inj hid)
    refine ⟨fun h ↦ ?_, fun text _ ↦ mem_ids hv⟩
    cases h
  | edge index =>
    obtain ⟨edge, hedge⟩ := hx
    rw [idOf, hedge] at hid
    obtain rfl : edge.id = known := Option.some.inj (Except.ok.inj hid)
    rw [hg.edge_id hedge]
    refine ⟨fun _ hshadowed ↦ ?_, fun text h ↦ ?_⟩
    · have hlt : index.position.toNat + 1 < signedLimit :=
        Nat.lt_of_le_of_lt index.position.toNat_lt (by decide)
      have hlarge : signedLimit ≤ (UInt64.ofNat (index.position.toNat + 1)).toNat := hshadowed.1
      rw [UInt64.toNat_ofNat_of_lt' (Nat.lt_trans hlt (by decide))] at hlarge
      exact Nat.not_le.mpr hlt hlarge
    · cases h
  | id _ | properties _ => exact absurd hx id

theorem Reachable.project_holds (hg : g.Reachable) (hx : g.Holds x) : ∃ known props,
    g.idOf x = .ok (some known) ∧ ElementStep.project g true x = .ok props ∧
      (x.kind = .edge → ¬g.Shadowed known) ∧
      (¬g.Shadowed known → g.idOf (.properties props) = .ok (some known)) ∧
      (g.Shadowed known → g.idOf (.properties props) = .ok (some (.name known.text))) := by
  obtain ⟨known, props, hid, hproject, hget⟩ := hx.project
  obtain ⟨hedge, hname⟩ := hg.idOf_holds hx hid
  have hread := idOf_of_get? (g := g) hget
  refine ⟨known, props, hid, hproject, hedge, fun h ↦ ?_, fun h ↦ ?_⟩
  · rw [hread, readBack_of_not_shadowed hg.indexed hname h]
  · rw [hread, readBack_of_shadowed hg.indexed h]

end Graph

/-! ## Excluding before and after a projection -/

variable {g : Graph}

/-- A list of ids treats an element and its map alike: if a vertex shadows the id, the list has both
the number and the name or none of them. -/
def Graph.Alike (g : Graph) (ids : List ElementId) (x : Element) : Prop :=
  ∀ known, g.idOf x = .ok (some known) → g.Shadowed known →
    (known ∈ ids ↔ .name known.text ∈ ids)

theorem ElementStep.apply_excludeIds {ids : List ElementId} {x : Element}
    {known : Option ElementId} (hid : g.idOf x = .ok known) :
    (ElementStep.excludeIds ids).apply g x
      = .ok (if known.any (· ∈ ids) then none else some x) := by
  simp only [apply, hid, bind, Except.bind]
  cases known.any (· ∈ ids) <;> rfl

theorem ElementStep.items_excludeIds {ids : List ElementId} {x : Element} {known : ElementId}
    (hid : g.idOf x = .ok (some known)) :
    (ElementStep.excludeIds ids).items g (.ok x) = if known ∈ ids then [] else [.ok x] := by
  rw [items, apply_excludeIds hid, Option.any_some]
  by_cases h : known ∈ ids
  · rw [if_pos h, decide_eq_true h]
    rfl
  · rw [if_neg h, decide_eq_false h]
    rfl

theorem ElementStep.items_properties {internal : Bool} {x : Element} {props : Properties}
    (h : project g internal x = .ok props) :
    (ElementStep.properties internal).items g (.ok x) = [.ok (.properties props)] := by
  rw [items, apply, h]
  rfl

/-- On a vertex or edge whose map is excluded alike, the two steps can change places. -/
theorem Graph.Reachable.items_properties_excludeIds (hg : g.Reachable) {ids : List ElementId}
    {item : Item} (h : ∀ x, item = .ok x → g.Holds x ∧ g.Alike ids x) :
    ((ElementStep.excludeIds ids).items g item).flatMap ((ElementStep.properties true).items g)
      = ((ElementStep.properties true).items g item).flatMap
        ((ElementStep.excludeIds ids).items g) := by
  cases item with
  | error e => rfl
  | ok x =>
    obtain ⟨hx, halike⟩ := h x rfl
    obtain ⟨known, props, hid, hproject, -, hkeeps, hshadowed⟩ := hg.project_holds hx
    have hread : ∃ read, g.idOf (.properties props) = .ok (some read) ∧
        (read ∈ ids ↔ known ∈ ids) := by
      by_cases hs : g.Shadowed known
      · exact ⟨_, hshadowed hs, (halike known hid hs).symm⟩
      · exact ⟨known, hkeeps hs, Iff.rfl⟩
    obtain ⟨read, hread, hmem⟩ := hread
    rw [ElementStep.items_excludeIds hid, ElementStep.items_properties hproject,
      List.flatMap_singleton, ElementStep.items_excludeIds hread]
    by_cases hin : known ∈ ids
    · rw [if_pos hin, if_pos (hmem.mpr hin), List.flatMap_nil]
    · rw [if_neg hin, if_neg fun hin' ↦ hin (hmem.mp hin'), List.flatMap_singleton,
        ElementStep.items_properties hproject]

theorem Query.toList_properties_excludeIds (hg : g.Reachable) {calls : List Call}
    (hcalls : calls ≠ []) {ids : List ElementId}
    (h : ∀ p x, (build g calls).outcome = .ok p → .ok x ∈ p.items g →
      (x.kind = .vertex ∨ x.kind = .edge) ∧ g.Alike ids x) :
    ((build g (calls ++ [.step (.excludeIds ids), .step (.properties true)])).toList g).1
      = ((build g (calls ++ [.step (.properties true), .step (.excludeIds ids)])).toList g).1 := by
  have hlaw : Interchangeable g calls [.excludeIds ids, .properties true]
      [.properties true, .excludeIds ids] := by
    refine interchangeable hg.wellFormed hcalls fun p hp hitems ↦
      denoteFrom_pair_congr fun item hitem ↦ hg.items_properties_excludeIds fun x hx ↦ ?_
    subst hx
    obtain ⟨hkind, halike⟩ := h p x hp hitem
    exact ⟨Graph.holds_of_kind (hitems _ hitem) hkind, halike⟩
  exact hlaw []

/-! ## Maps of different vertices -/

namespace Graph

theorem Shadowed.text_inj {a b : ElementId} (ha : g.Shadowed a) (hb : g.Shadowed b)
    (h : a.text = b.text) : a = b := by
  have hread : ∀ id, g.Shadowed id →
      (Numeral.unsigned64? id.text).map ElementId.number = some id := by
    intro id hid
    cases id with
    | name text => exact absurd hid False.elim
    | number n =>
      rw [ElementId.text, Numeral.unsigned64?_toString n.toNat_lt, UInt64.ofNat_toNat]
      rfl
  exact Option.some.inj ((hread a ha).symm.trans (h ▸ hread b hb))

/-- Maps tell vertices apart, except for a vertex and the one that shadows it. -/
theorem Reachable.project_inj (hg : g.Reachable) {i j : VertexIndex} {v w : Vertex}
    (hi : g.vertex i = .ok v) (hj : g.vertex j = .ok w)
    (h : (ElementStep.properties true).apply g (.vertex i)
      = (ElementStep.properties true).apply g (.vertex j)) :
    i = j ∨ g.Shadowed v.id ∧ w.id = .name v.id.text ∨
      g.Shadowed w.id ∧ v.id = .name w.id.text := by
  obtain ⟨a, props, ha, hproject, -, hkeep, hshadowed⟩ := hg.project_holds (x := .vertex i) ⟨v, hi⟩
  obtain ⟨b, props', hb, hproject', -, hkeep', hshadowed'⟩ :=
    hg.project_holds (x := .vertex j) ⟨w, hj⟩
  rw [idOf, hi] at ha
  rw [idOf, hj] at hb
  obtain rfl : v.id = a := Option.some.inj (Except.ok.inj ha)
  obtain rfl : w.id = b := Option.some.inj (Except.ok.inj hb)
  rw [ElementStep.apply, ElementStep.apply, hproject, hproject'] at h
  obtain rfl : props = props' :=
    Element.properties.inj (Option.some.inj (Except.ok.inj h))
  -- the two ids are read off one map, so they are read as one id
  have hread : ∀ {r s : ElementId}, g.idOf (.properties props) = .ok (some r) →
      g.idOf (.properties props) = .ok (some s) → r = s := fun hr hs ↦
    Option.some.inj (Except.ok.inj (hr.symm.trans hs))
  by_cases hv : g.Shadowed v.id <;> by_cases hw : g.Shadowed w.id
  · have htext := ElementId.name.inj (hread (hshadowed hv) (hshadowed' hw))
    exact .inl (hg.indexed.index_inj hi hj (hv.text_inj hw htext))
  · exact .inr (.inl ⟨hv, hread (hkeep' hw) (hshadowed hv)⟩)
  · exact .inr (.inr ⟨hw, hread (hkeep hv) (hshadowed' hw)⟩)
  · exact .inl (hg.indexed.index_inj hi hj (hread (hkeep hv) (hkeep' hw)))

/-- **The internal id survives projection unless a name shadows it.** The map of a vertex or edge is
read back as its id, or as the name that shadows the id; edges are never shadowed. So a list of ids
that does not tell a shadowed number from its name can be excluded before and after the projection
with the same answer, and different vertices have different maps unless one shadows the other. -/
theorem Reachable.internal_id_survives (hg : g.Reachable) :
    (∀ x, g.Holds x → ∃ known props, g.idOf x = .ok (some known) ∧
      (ElementStep.properties true).apply g x = .ok (some (.properties props)) ∧
      (x.kind = .edge → ¬g.Shadowed known) ∧
      (¬g.Shadowed known → g.idOf (.properties props) = .ok (some known)) ∧
      (g.Shadowed known → g.idOf (.properties props) = .ok (some (.name known.text)))) ∧
    (∀ calls ids, calls ≠ [] →
      (∀ p x, (Query.build g calls).outcome = .ok p → .ok x ∈ p.items g →
        (x.kind = .vertex ∨ x.kind = .edge) ∧ g.Alike ids x) →
      ((Query.build g
          (calls ++ [.step (.excludeIds ids), .step (.properties true)])).toList g).1
        = ((Query.build g
          (calls ++ [.step (.properties true), .step (.excludeIds ids)])).toList g).1) ∧
    ∀ i j v w, g.vertex i = .ok v → g.vertex j = .ok w →
      (ElementStep.properties true).apply g (.vertex i)
        = (ElementStep.properties true).apply g (.vertex j) →
      i = j ∨ g.Shadowed v.id ∧ w.id = .name v.id.text ∨
        g.Shadowed w.id ∧ v.id = .name w.id.text := by
  refine ⟨fun x hx ↦ ?_, fun calls ids hcalls h ↦ Query.toList_properties_excludeIds hg hcalls h,
    fun i j v w hi hj h ↦ hg.project_inj hi hj h⟩
  obtain ⟨known, props, hid, hproject, hedge, hkeep, hshadowed⟩ := hg.project_holds hx
  refine ⟨known, props, hid, ?_, hedge, hkeep, hshadowed⟩
  rw [ElementStep.apply, hproject]
  rfl

/-- A number above the signed range without and one with a vertex of its digits, a name that is
the number of the edge, and properties called like the internal ones. -/
def disguised : Graph :=
  let g := (empty.addVertex "page" (.ofList [("_id", .text "b")])
    (some (.number 18446744073709551615))).graph
  let g := (g.addVertex "page" .empty (some (.name "b"))).graph
  let g := (g.addVertex "page" .empty (some (.number 9223372036854775808))).graph
  let g := (g.addVertex "page" .empty (some (.name "9223372036854775808"))).graph
  let g := (g.addVertex "page" .empty (some (.name "1"))).graph
  (g.addEdge "links" ⟨0⟩ ⟨1⟩ .empty).graph

theorem reachable_disguised : disguised.Reachable :=
  .addEdge _ _ _ _ <| .addVertex _ _ _ <| .addVertex _ _ _ <| .addVertex _ _ _ <|
    .addVertex _ _ _ <| .addVertex _ _ _ .empty

/-- The lowest number above the signed range is read back as the name of its digits, is excluded
before the projection only, and has the same map as the vertex of that name. -/
theorem internal_id_lost :
    let map := (Properties.empty.insert "_id" (.text "9223372036854775808")).insert "_label"
      (.text "page")
    disguised.Reachable ∧
    disguised.idOf (.vertex ⟨2⟩) = .ok (some (.number 9223372036854775808)) ∧
    (ElementStep.properties true).apply disguised (.vertex ⟨2⟩) = .ok (some (.properties map)) ∧
    disguised.idOf (.properties map) = .ok (some (.name "9223372036854775808")) ∧
    ((Query.build disguised [.vertices, .step (.excludeIds [.number 9223372036854775808]),
        .step (.properties true)]).toList disguised).1
      ≠ ((Query.build disguised [.vertices, .step (.properties true),
        .step (.excludeIds [.number 9223372036854775808])]).toList disguised).1 ∧
    disguised.vertex ⟨2⟩ ≠ disguised.vertex ⟨3⟩ ∧
    (ElementStep.properties true).apply disguised (.vertex ⟨3⟩) = .ok (some (.properties map)) :=
  ⟨reachable_disguised, by decide +kernel, by decide +kernel, by decide +kernel,
    by decide +kernel, by decide +kernel, by decide +kernel⟩

theorem shadowed_disguised {known : ElementId} (h : disguised.Shadowed known) :
    known = .number 9223372036854775808 := by
  cases known with
  | name text => exact absurd h id
  | number n =>
    have hread := Numeral.unsigned64?_toString n.toNat_lt
    have hids : disguised.ids = [.number 18446744073709551615, .name "b",
      .number 9223372036854775808, .name "9223372036854775808", .name "1"] := by decide +kernel
    obtain ⟨hlarge, hmem⟩ := h
    simp only [hids, List.mem_cons, List.not_mem_nil, ElementId.name.injEq, reduceCtorEq,
      or_false, false_or] at hmem
    -- the digits are one of the three names, and the number is what that name reads as
    rcases hmem with htext | htext | htext <;> rw [htext, UInt64.ofNat_toNat] at hread
    · cases hread
    · exact congrArg ElementId.number (Option.some.inj hread).symm
    · rw [← Option.some.inj hread] at hlarge
      exact absurd hlarge (by decide)

theorem internal_id_survives_disguised :
    disguised.Reachable ∧
    (∃ props, (ElementStep.properties true).apply disguised (.vertex ⟨0⟩)
        = .ok (some (.properties props)) ∧
      disguised.idOf (.properties props) = .ok (some (.number 18446744073709551615))) ∧
    (∃ props, (ElementStep.properties true).apply disguised (.edge ⟨0⟩)
        = .ok (some (.properties props)) ∧
      disguised.idOf (.properties props) = .ok (some (.number 1))) ∧
    ((Query.build disguised ([.vertices] ++ [.step (.excludeIds [.number 18446744073709551615,
        .number 1]), .step (.properties true)])).toList disguised).1
      = ((Query.build disguised ([.vertices] ++ [.step (.properties true),
        .step (.excludeIds [.number 18446744073709551615, .number 1])])).toList disguised).1 ∧
    (ElementStep.properties true).apply disguised (.vertex ⟨0⟩)
      ≠ (ElementStep.properties true).apply disguised (.vertex ⟨1⟩) := by
  obtain ⟨hback, hexclude, hinj⟩ := reachable_disguised.internal_id_survives
  have hvertices : 1 < disguised.vertices.size := by decide +kernel
  have hedges : 0 < disguised.edges.size := by decide +kernel
  have hv : disguised.vertex ⟨0⟩ = .ok disguised.vertices[0] :=
    vertex_eq_ok.mpr (Array.getElem?_eq_getElem _)
  have hw : disguised.vertex ⟨1⟩ = .ok disguised.vertices[1] :=
    vertex_eq_ok.mpr (Array.getElem?_eq_getElem _)
  have hedge : disguised.edge ⟨0⟩ = .ok disguised.edges[0] :=
    edge_eq_ok.mpr (Array.getElem?_eq_getElem _)
  have hnumber : disguised.idOf (.vertex ⟨0⟩) = .ok (some (.number 18446744073709551615)) := by
    decide +kernel
  have hname : disguised.idOf (.vertex ⟨1⟩) = .ok (some (.name "b")) := by decide +kernel
  have hfirst : disguised.idOf (.edge ⟨0⟩) = .ok (some (.number 1)) := by decide +kernel
  refine ⟨reachable_disguised, ?_, ?_, hexclude [.vertices] _ (List.cons_ne_nil _ _) ?_, ?_⟩
  · obtain ⟨known, props, hid, happly, -, hkeep, -⟩ := hback (.vertex ⟨0⟩) ⟨_, hv⟩
    obtain rfl := Option.some.inj (Except.ok.inj (hid.symm.trans hnumber))
    exact ⟨props, happly, hkeep fun h ↦ absurd (shadowed_disguised h) (by decide)⟩
  · obtain ⟨known, props, hid, happly, hnever, hkeep, -⟩ := hback (.edge ⟨0⟩) ⟨_, hedge⟩
    obtain rfl := Option.some.inj (Except.ok.inj (hid.symm.trans hfirst))
    exact ⟨props, happly, hkeep (hnever rfl)⟩
  · intro p x hp hx
    have hitems : p.items disguised
        = denote disguised [] (disguised.vertexIndices.map .vertex) :=
      (@Query.items_of_outcome_build _ .vertices [] _ rfl _ hp).2
    rw [hitems] at hx
    obtain ⟨y, hy, heq⟩ := List.mem_map.mp hx
    obtain ⟨index, -, rfl⟩ := List.mem_map.mp hy
    obtain rfl := Except.ok.inj heq
    refine ⟨.inl rfl, fun known _ hshadowed ↦ ?_⟩
    rw [shadowed_disguised hshadowed]
    decide
  · -- the shadowed number is the id of neither of the two vertices
    intro heq
    rw [idOf, hv] at hnumber
    rw [idOf, hw] at hname
    have hv' := Option.some.inj (Except.ok.inj hnumber)
    have hw' := Option.some.inj (Except.ok.inj hname)
    rcases hinj ⟨0⟩ ⟨1⟩ _ _ hv hw heq with h | ⟨h, -⟩ | ⟨h, -⟩
    · exact absurd h (by decide)
    · exact absurd (hv' ▸ shadowed_disguised h) (by decide)
    · exact absurd (hw' ▸ shadowed_disguised h) (by decide)

end Graph

end BookmarkGraph
