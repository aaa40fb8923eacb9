import BookmarkGraph.Proofs.Laws.Filters
import Mathlib.Data.Set.Function

/-!
# The algebra of projections

A projection reads something off an element, and reading it off once more gives the same. For ids
this is immediate: an id is its own id. For maps there is work to do. A second projection reads the
id of the first map and enters it again, so it has to meet the entry that is there, `ofId_readBack`.
Ids can be read back differently, but only between a number above the signed range and the name of
its digits, and these two have one entry.

Excluding by id does not mind the projection to ids, because both read the same id. Removing
repetitions does not mind it where the id determines the element, which is so among vertices, and
among edges.
-/

namespace BookmarkGraph

open Query

/-! ## Entering what is there -/

namespace Properties

theorem place_of_mem {key : String} {value : Value} {entries : List (String × Value)}
    (hascending : entries.Pairwise fun a b ↦ a.1 < b.1) (h : (key, value) ∈ entries) :
    place key value entries = entries := by
  induction entries with
  | nil => exact absurd h List.not_mem_nil
  | cons head rest ih =>
    obtain ⟨hfirst, hrest⟩ := List.pairwise_cons.mp hascending
    rcases List.mem_cons.mp h with rfl | h
    · rw [place, if_neg (String.lt_irrefl key), if_pos rfl]
    · have hlt : head.1 < key := hfirst _ h
      have hne : key ≠ head.1 := fun heq ↦ String.lt_irrefl key (heq ▸ hlt)
      rw [place, if_neg (String.lt_asymm hlt), if_neg hne, ih hrest h]

theorem insert_of_get? {props : Properties} {key : String} {value : Value}
    (h : props.get? key = some value) : props.insert key value = props := by
  obtain ⟨before, after, hentries, -⟩ := List.lookup_eq_some_iff.mp h
  have hmem : (key, value) ∈ props.entries := by
    rw [hentries]
    exact List.mem_append_right before List.mem_cons_self
  have hplace := place_of_mem props.ascending hmem
  rw [insert]
  simp only [hplace]

end Properties

namespace Graph

variable {g : Graph} {known : ElementId} {props : Properties}

theorem ofId_readBack (hname : ∀ text, known = .name text → g.projectedName text = known) :
    Value.ofId (g.readBack known) = Value.ofId known := by
  cases known with
  | name text => rw [readBack, hname text rfl]
  | number n =>
    rw [readBack]
    split
    · rfl
    · rename_i hlarge
      by_cases hid : g.hasId (.name (toString n.toNat))
      · rw [projectedName_of_hasId hid, Value.ofId, Value.ofId, if_neg hlarge]
      · rw [projectedName_digits (Nat.not_lt.mp hlarge) hid]

/-- A map that has an entry for an id which it is not read back from is as it is after a second
internal projection. -/
theorem project_of_get? (hget : props.get? "_id" = some (.ofId known))
    (hname : ∀ text, known = .name text → g.projectedName text = known) (internal : Bool) :
    ElementStep.project g internal (.properties props) = .ok props := by
  cases internal with
  | false => rfl
  | true =>
    have hsame : props.insert "_id" (.ofId (g.readBack known)) = props := by
      rw [ofId_readBack hname, Properties.insert_of_get? hget]
    rw [ElementStep.project, idOf_of_get? hget]
    exact congrArg Except.ok hsame

theorem eq_of_projectedName {name text : String} (h : g.projectedName name = .name text) :
    name = text := by
  rw [projectedName] at h
  split at h
  · exact ElementId.name.inj h
  · split at h
    · split at h
      · cases h
      · exact ElementId.name.inj h
    · exact ElementId.name.inj h

theorem projectedName_of_idOf {text : String}
    (h : g.idOf (.properties props) = .ok (some (.name text))) :
    g.projectedName text = .name text := by
  rw [idOf] at h
  split at h
  · rename_i name _
    have hread : g.projectedName name = .name text := Option.some.inj (Except.ok.inj h)
    rwa [eq_of_projectedName hread] at hread
  · have hread := Except.ok.inj h
    split at hread <;> cases hread
  · cases h

/-- **The second internal projection changes nothing.** -/
theorem Reachable.project_project (hg : g.Reachable) {x : Element} (hx : x.IsOf g)
    (hproject : ElementStep.project g true x = .ok props) (internal : Bool) :
    ElementStep.project g internal (.properties props) = .ok props := by
  by_cases hkind : x.kind = .vertex ∨ x.kind = .edge
  · have hholds := holds_of_kind hx hkind
    obtain ⟨known, props', hid, hproject', hget⟩ := hholds.project
    obtain rfl : props' = props := Except.ok.inj (hproject'.symm.trans hproject)
    refine project_of_get? hget (fun text htext ↦ ?_) internal
    subst htext
    exact projectedName_of_hasId
      (hg.indexed.hasId_eq_true.mpr ((hg.idOf_holds hholds hid).2 text rfl))
  · cases x with
    | vertex _ => exact absurd (.inl rfl) hkind
    | edge _ => exact absurd (.inr rfl) hkind
    | id _ => cases hproject
    | properties before =>
      obtain ⟨known, hid⟩ := hx.idOf
      rw [ElementStep.project, hid] at hproject
      cases known with
      | none =>
        obtain rfl : before = props := Except.ok.inj hproject
        cases internal with
        | false => rfl
        | true =>
          rw [ElementStep.project, hid]
          rfl
      | some known =>
        obtain rfl : before.insert "_id" (.ofId known) = props := Except.ok.inj hproject
        have hget : (before.insert "_id" (.ofId known)).get? "_id" = some (.ofId known) := by
          rw [Properties.get?_insert, if_pos rfl]
        refine project_of_get? hget (fun text htext ↦ ?_) internal
        subst htext
        exact projectedName_of_idOf hid

end Graph

/-! ## Ids -/

section Ids

variable {g : Graph} {x : Element} {items : List Item}

/-- What the projection to ids makes of an element with the given id, or without one. -/
def ElementStep.projectedId (x : Element) : Option ElementId → Item
  | some known => .ok (.id known)
  | none => .error (.invalidState (.idMissing x.kind))

theorem ElementStep.items_id {known : Option ElementId} (hid : g.idOf x = .ok known) :
    ElementStep.id.items g (.ok x) = [projectedId x known] := by
  rw [items, apply, hid]
  cases known <;> rfl

theorem denoteFrom_id_id (hitems : ∀ item ∈ items, IsItemOf g item) :
    denoteFrom g [.id, .id] items = denoteFrom g [.id] items := by
  refine denoteFrom_pair_absorb fun item hitem ↦ ?_
  cases item with
  | error e => rfl
  | ok x =>
    obtain ⟨known, hid⟩ := Element.IsOf.idOf (x := x) (hitems _ hitem)
    rw [ElementStep.items_id hid]
    cases known <;> rfl

theorem denoteFrom_excludeIds_id (ids : List ElementId)
    (hitems : ∀ item ∈ items, IsItemOf g item) :
    denoteFrom g [.excludeIds ids, .id] items = denoteFrom g [.id, .excludeIds ids] items := by
  refine denoteFrom_pair_congr fun item hitem ↦ ?_
  cases item with
  | error e => rfl
  | ok x =>
    obtain ⟨known, hid⟩ := Element.IsOf.idOf (x := x) (hitems _ hitem)
    rw [ElementStep.items_id hid]
    cases known with
    | none =>
      have hkept : (ElementStep.excludeIds ids).items g (.ok x) = [.ok x] := by
        rw [ElementStep.items, ElementStep.apply_excludeIds hid]
        rfl
      rw [hkept, List.flatMap_singleton, ElementStep.items_id hid]
      rfl
    | some known =>
      have hprojected : g.idOf (.id known) = .ok (some known) := rfl
      rw [ElementStep.items_excludeIds hid, List.flatMap_singleton, ElementStep.projectedId,
        ElementStep.items_excludeIds hprojected]
      by_cases hmem : known ∈ ids
      · rw [if_pos hmem, if_pos hmem, List.flatMap_nil]
      · rw [if_neg hmem, if_neg hmem, List.flatMap_singleton, ElementStep.items_id hid]
        rfl

/-- The id of an element that has one. -/
def Graph.knownId (g : Graph) (x : Element) : ElementId :=
  match g.idOf x with
  | .ok (some known) => known
  | _ => default

theorem Graph.knownId_eq {known : ElementId} (hid : g.idOf x = .ok (some known)) :
    g.knownId x = known := by
  rw [knownId, hid]

/-- Among vertices, and among edges, the id determines the element. -/
theorem Graph.Reachable.knownId_inj (hg : g.Reachable) {y : Element} (hx : g.Holds x)
    (hy : g.Holds y) (hkind : x.kind = y.kind) (h : g.knownId x = g.knownId y) : x = y := by
  cases x with
  | vertex i =>
    cases y with
    | vertex j =>
      obtain ⟨v, hv⟩ := hx
      obtain ⟨w, hw⟩ := hy
      have hid : ∀ {index u}, g.vertex index = .ok u → g.knownId (.vertex index) = u.id := by
        intro index u hu
        exact knownId_eq (by rw [idOf, hu]; rfl)
      rw [hid hv, hid hw] at h
      rw [hg.indexed.index_inj hv hw h]
    | edge _ | id _ | properties _ => cases hkind
  | edge i =>
    cases y with
    | edge j =>
      obtain ⟨e, he⟩ := hx
      obtain ⟨e', he'⟩ := hy
      have hid : ∀ {index u}, g.edge index = .ok u → g.knownId (.edge index)
          = .number (UInt64.ofNat (index.position.toNat + 1)) := by
        intro index u hu
        rw [← hg.edge_id hu]
        exact knownId_eq (by rw [idOf, hu]; rfl)
      rw [hid he, hid he'] at h
      have hword : ∀ index : EdgeIndex,
          (UInt64.ofNat (index.position.toNat + 1)).toNat = index.position.toNat + 1 := by
        intro index
        exact UInt64.toNat_ofNat_of_lt' (Nat.lt_of_le_of_lt index.position.toNat_lt (by decide))
      have hnat := congrArg UInt64.toNat (ElementId.number.inj h)
      rw [hword, hword] at hnat
      have hposition : i.position = j.position := UInt32.toNat_inj.mp (Nat.succ.inj hnat)
      exact congrArg (Element.edge ⟨·⟩) hposition
    | vertex _ | id _ | properties _ => cases hkind
  | id _ | properties _ => exact absurd hx False.elim

/-- Removing repetitions before or after a replacement that keeps elements apart. -/
theorem distinctItems_map {f : Element → Element} {s : Set Element} (hinj : s.InjOn f)
    {seen : List Element} (hseen : ∀ x ∈ seen, x ∈ s) (hitems : ∀ x, .ok x ∈ items → x ∈ s) :
    distinctItems (seen.map f) (items.map (Except.map f))
      = (distinctItems seen items).map (Except.map f) := by
  induction items generalizing seen with
  | nil => rfl
  | cons item rest ih =>
    have hrest : ∀ y, .ok y ∈ rest → y ∈ s := fun y hy ↦ hitems y (List.mem_cons_of_mem _ hy)
    rw [List.map_cons]
    cases item with
    | error e =>
      rw [distinctItems, List.map_cons, ← ih hseen hrest]
      rfl
    | ok x =>
      have hx : x ∈ s := hitems x List.mem_cons_self
      have hmem : f x ∈ seen.map f ↔ x ∈ seen := by
        refine ⟨fun h ↦ ?_, List.mem_map_of_mem⟩
        obtain ⟨y, hy, heq⟩ := List.mem_map.mp h
        rwa [← hinj (hseen y hy) hx heq]
      rw [Except.map, distinctItems, distinctItems]
      by_cases hold : x ∈ seen
      · rw [if_pos hold, if_pos (hmem.mpr hold), ih hseen hrest]
      · have hnext : ∀ y ∈ x :: seen, y ∈ s := List.forall_mem_cons.mpr ⟨hx, hseen⟩
        rw [if_neg hold, if_neg fun h ↦ hold (hmem.mp h), ← List.map_cons, ih hnext hrest]
        rfl

theorem flatMap_items_id (hitems : ∀ x, .ok x ∈ items → g.Holds x) :
    items.flatMap (ElementStep.id.items g)
      = items.map (Except.map fun x ↦ .id (g.knownId x)) := by
  rw [← List.flatMap_pure_eq_map]
  refine List.flatMap_congr fun item hitem ↦ ?_
  cases item with
  | error e => rfl
  | ok x =>
    obtain ⟨known, -, -, hid, -, -⟩ := (hitems x hitem).facts
    rw [ElementStep.items_id hid, Function.comp_apply, Except.map, Graph.knownId_eq hid]
    rfl

/-- Vertices repeat where their ids repeat, and so do edges. -/
theorem denoteFrom_distinct_id (hg : g.Reachable) {kind : ElementKind}
    (hitems : ∀ x, .ok x ∈ items → g.Holds x ∧ x.kind = kind) :
    denoteFrom g [.distinct, .id] items = denoteFrom g [.id, .distinct] items := by
  have hholds : ∀ x, .ok x ∈ items → g.Holds x := fun x hx ↦ (hitems x hx).1
  have hinj : Set.InjOn (fun x ↦ Element.id (g.knownId x)) {x | g.Holds x ∧ x.kind = kind} :=
    fun x hx y hy h ↦
      hg.knownId_inj hx.1 hy.1 (hx.2.trans hy.2.symm) (Element.id.inj h)
  calc denoteFrom g [.distinct, .id] items
      = (distinctItems [] items).flatMap (ElementStep.id.items g) := rfl
    _ = (distinctItems [] items).map (Except.map fun x ↦ .id (g.knownId x)) :=
        flatMap_items_id fun x hx ↦ hholds x (mem_of_mem_distinctItems hx)
    _ = distinctItems [] (items.map (Except.map fun x ↦ .id (g.knownId x))) :=
        (distinctItems_map hinj (fun _ hx ↦ absurd hx List.not_mem_nil) hitems).symm
    _ = distinctItems [] (items.flatMap (ElementStep.id.items g)) := by
        rw [flatMap_items_id hholds]
    _ = denoteFrom g [.id, .distinct] items := rfl

theorem denoteFrom_properties_properties (hg : g.Reachable) (internal : Bool)
    (hitems : ∀ item ∈ items, IsItemOf g item) :
    denoteFrom g [.properties true, .properties internal] items
      = denoteFrom g [.properties true] items := by
  refine denoteFrom_pair_absorb fun item hitem ↦ ?_
  cases item with
  | error e => rfl
  | ok x =>
    have hx : x.IsOf g := hitems _ hitem
    rcases hx.project true with ⟨props, hproject⟩ | ⟨fault, hproject⟩
    · rw [ElementStep.items_properties hproject, List.flatMap_singleton,
        ElementStep.items_properties (hg.project_project hx hproject internal)]
    · rw [ElementStep.items, ElementStep.apply, hproject]
      rfl

end Ids

/-! ## The laws -/

namespace Graph

/-- **The algebra of projections.** In the middle of any traversal of a reachable graph, projecting
to ids twice is projecting once, ids are excluded before or after the projection to them, and a
projection behind an internal one to properties changes nothing. Where vertices only or edges only
arrive, repetitions are removed before or after the projection to ids. -/
theorem Reachable.projection_laws {g : Graph} (hg : g.Reachable) (calls : List Call) :
    SameList g calls [.id, .id] [.id] ∧
    (∀ ids, SameList g calls [.excludeIds ids, .id] [.id, .excludeIds ids]) ∧
    (Delivers g calls .vertex ∨ Delivers g calls .edge →
      SameList g calls [.distinct, .id] [.id, .distinct]) ∧
    ∀ internal, SameList g calls [.properties true, .properties internal] [.properties true] := by
  have hlaw : ∀ {left right : List Step}, left ≠ [] → right ≠ [] →
      (∀ p, (build g calls).outcome = .ok p → (∀ item ∈ p.items g, IsItemOf g item) →
        denoteFrom g left (p.items g) = denoteFrom g right (p.items g)) →
      SameList g calls left right := fun hleft hright h ↦
    sameList_of_interchangeable hleft hright fun hcalls ↦ interchangeable hg.wellFormed hcalls h
  have hdistinct : ∀ kind, kind = .vertex ∨ kind = .edge → Delivers g calls kind →
      SameList g calls [.distinct, .id] [.id, .distinct] := by
    intro kind hkind hdelivers
    refine hlaw (List.cons_ne_nil _ _) (List.cons_ne_nil _ _) fun p hp hitems ↦ ?_
    refine denoteFrom_distinct_id hg fun x hx ↦ ⟨?_, hdelivers p x hp hx⟩
    exact holds_of_kind (hitems _ hx) (hdelivers p x hp hx ▸ hkind)
  refine ⟨?_, fun ids ↦ ?_, ?_, fun internal ↦ ?_⟩
  · exact hlaw (List.cons_ne_nil _ _) (List.cons_ne_nil _ _) fun _ _ ↦ denoteFrom_id_id
  · exact hlaw (List.cons_ne_nil _ _) (List.cons_ne_nil _ _) fun _ _ ↦ denoteFrom_excludeIds_id ids
  · rintro (hdelivers | hdelivers)
    · exact hdistinct .vertex (.inl rfl) hdelivers
    · exact hdistinct .edge (.inr rfl) hdelivers
  · exact hlaw (List.cons_ne_nil _ _) (List.cons_ne_nil _ _) fun _ _ ↦
      denoteFrom_properties_properties hg internal

/-- Edges that are met from both of their ends, numbers above the signed range of which one is read
as the name of its digits, and a map from which no id can be read. -/
theorem projection_laws_disguised :
    let answer := fun (g : Graph) (calls : List Call) (steps : List Step) ↦
      ((build g (calls ++ steps.map .step)).toList g).1.toOption
    let met : List Call := [.vertices, .step (.bothEdges [])]
    let large : List Call := [.ofIds [.number 9223372036854775808, .number 18446744073709551615]]
    let maps : List Call := large ++ [.step (.properties false)]
    tangled.Reachable ∧ Delivers tangled met .edge ∧
    answer tangled met [.distinct, .id]
      = some [.id (.number 1), .id (.number 2), .id (.number 4), .id (.number 3)] ∧
    answer tangled met [.id, .distinct]
      = some [.id (.number 1), .id (.number 2), .id (.number 4), .id (.number 3)] ∧
    disguised.Reachable ∧
    answer disguised large [.properties true, .properties true, .id]
      = some [.id (.name "9223372036854775808"), .id (.number 18446744073709551615)] ∧
    answer disguised large [.properties true, .id]
      = some [.id (.name "9223372036854775808"), .id (.number 18446744073709551615)] ∧
    answer disguised maps [.id, .id] = none ∧ answer disguised maps [.id] = none ∧
    answer disguised maps [.excludeIds [.name "b"], .id] = none ∧
    answer disguised maps [.id, .excludeIds [.name "b"]] = none := by
  intro answer met large maps
  have hdelivers : Delivers tangled met .edge :=
    @delivers_of_denote _ .vertices [.bothEdges []] _ _ rfl (by decide +kernel)
  obtain ⟨-, -, hdistinct, -⟩ := reachable_tangled.projection_laws met
  obtain ⟨-, -, -, hproperties⟩ := reachable_disguised.projection_laws large
  obtain ⟨hid, hexclude, -, -⟩ := reachable_disguised.projection_laws maps
  have hmet : answer tangled met [.id, .distinct]
      = some [.id (.number 1), .id (.number 2), .id (.number 4), .id (.number 3)] := by
    decide +kernel
  have hlarge : answer disguised large [.properties true, .id]
      = some [.id (.name "9223372036854775808"), .id (.number 18446744073709551615)] := by
    decide +kernel
  have hmaps : answer disguised maps [.id] = none := by decide +kernel
  have hexcluded : answer disguised maps [.id, .excludeIds [.name "b"]] = none := by
    decide +kernel
  exact ⟨reachable_tangled, hdelivers, (hdistinct (.inr hdelivers) []).trans hmet, hmet,
    reachable_disguised, (hproperties true [.id]).trans hlarge, hlarge, (hid []).trans hmaps,
    hmaps, (hexclude [.name "b"] []).trans hexcluded, hexcluded⟩

end Graph

end BookmarkGraph
