import BookmarkGraph.Proofs.Laws.Context
import BookmarkGraph.Proofs.Projection

/-!
# The algebra of steps that select

Some steps drop elements and change nothing else. On items of a graph, `excludeIds`, `has` and
`hasLabel` keep what passes a test, and an error passes every test; so two of them are one test
after the other, in either order. `distinct` remembers what it has passed and `limit` counts it, and
each of the two absorbs another one of its kind.

A test and `distinct` change places because the test never tells equal elements apart: an element
that fails it is dropped wherever it occurs, so it does not matter whether `distinct` remembers it.
The invariant of the induction is therefore that both memories have the same elements among those
that pass.
-/

namespace BookmarkGraph

open Query

/-! ## Tests -/

/-- The step keeps an element as it is or drops it, without regard to the others. -/
def ElementStep.IsTest (step : ElementStep) : Prop :=
  step matches .excludeIds _ | .has _ _ | .hasLabel _

/-- The step drops elements and leaves the others as they are, whichever they are. -/
def Step.Selects (step : Step) : Prop :=
  step = .distinct ∨ ∃ test : ElementStep, test.IsTest ∧ step = .element test

/-- Whether an item is still there after a test; errors are. -/
def ElementStep.passes (g : Graph) (step : ElementStep) : Item → Bool
  | .error _ => true
  | .ok x => step.apply g x = .ok (some x)

section Tests

variable {g : Graph} {items : List Item}

theorem ElementStep.items_of_isTest {step : ElementStep} (hstep : step.IsTest) {item : Item}
    (hitem : IsItemOf g item) :
    step.items g item = if step.passes g item then [item] else [] := by
  cases item with
  | error e => rfl
  | ok x =>
    have hx : x.IsOf g := hitem
    rcases hx.apply_filter hstep with h | h
    · rw [items, passes, h]
      rfl
    · rw [items, passes, h, decide_eq_true rfl]
      rfl

theorem Step.items_of_isTest {step : ElementStep} (hstep : step.IsTest)
    (hitems : ∀ item ∈ items, IsItemOf g item) :
    (Step.element step).items g items = items.filter (step.passes g) := by
  rw [Step.items]
  induction items with
  | nil => rfl
  | cons item rest ih =>
    rw [List.flatMap_cons, ih fun i hi ↦ hitems i (List.mem_cons_of_mem item hi),
      ElementStep.items_of_isTest hstep (hitems item List.mem_cons_self), List.filter_cons]
    split <;> rfl

theorem denoteFrom_tests {a b : ElementStep} (ha : a.IsTest) (hb : b.IsTest)
    (hitems : ∀ item ∈ items, IsItemOf g item) :
    denoteFrom g [.element a, .element b] items
      = items.filter fun item ↦ a.passes g item && b.passes g item := by
  have hkept : ∀ item ∈ items.filter (a.passes g), IsItemOf g item := fun item hitem ↦
    hitems item (List.mem_filter.mp hitem).1
  rw [denoteFrom, List.foldl_cons, List.foldl_cons, List.foldl_nil, Step.items_of_isTest ha hitems,
    Step.items_of_isTest hb hkept, List.filter_filter]
  exact List.filter_congr fun item _ ↦ Bool.and_comm _ _

theorem ElementStep.passes_excludeIds {ids : List ElementId} {x : Element}
    {known : Option ElementId} (hid : g.idOf x = .ok known) :
    (ElementStep.excludeIds ids).passes g (.ok x) = !known.any (· ∈ ids) := by
  rw [passes, apply_excludeIds hid]
  cases known.any (· ∈ ids)
  · exact decide_eq_true rfl
  · exact decide_eq_false nofun

/-- An element passes two lists of ids if it passes their union. -/
theorem ElementStep.passes_union {s t u : List ElementId} (hu : ∀ id, id ∈ u ↔ id ∈ s ∨ id ∈ t)
    {item : Item} (hitem : IsItemOf g item) :
    ((excludeIds s).passes g item && (excludeIds t).passes g item)
      = (excludeIds u).passes g item := by
  cases item with
  | error e => rfl
  | ok x =>
    obtain ⟨known, hid⟩ := Element.IsOf.idOf (x := x) hitem
    rw [passes_excludeIds hid, passes_excludeIds hid, passes_excludeIds hid]
    cases known with
    | none => rfl
    | some id =>
      rw [Option.any_some, Option.any_some, Option.any_some, ← Bool.not_or, ← Bool.decide_or]
      simp only [hu]

end Tests

/-! ## Repetitions and bounds -/

/-- Nothing is left to drop for a second removal of repetitions that remembers no more. -/
theorem distinctItems_distinctItems {seen seen' : List Element} (hseen : seen' ⊆ seen)
    (items : List Item) :
    distinctItems seen' (distinctItems seen items) = distinctItems seen items := by
  induction items generalizing seen seen' with
  | nil => rfl
  | cons item rest ih =>
    cases item with
    | error e => rw [distinctItems, distinctItems, ih hseen]
    | ok x =>
      rw [distinctItems]
      split
      · exact ih hseen
      · rename_i hnew
        rw [distinctItems, if_neg fun h ↦ hnew (hseen h), ih (List.cons_subset_cons x hseen)]

theorem limitItems_nil (n : Nat) : limitItems n [] = [] := by
  cases n <;> rfl

theorem limitItems_limitItems (n m : Nat) (items : List Item) :
    limitItems m (limitItems n items) = limitItems (min n m) items := by
  induction items generalizing n m with
  | nil => rw [limitItems_nil, limitItems_nil, limitItems_nil]
  | cons item rest ih =>
    cases n with
    | zero =>
      rw [Nat.zero_min]
      exact limitItems_nil m
    | succ n =>
      cases m with
      | zero => rw [Nat.min_zero, limitItems, limitItems]
      | succ m =>
        rw [Nat.succ_min_succ]
        cases item with
        | error e => rw [limitItems, limitItems, ih, Nat.succ_min_succ, limitItems]
        | ok x => rw [limitItems, limitItems, ih, limitItems]

/-- The removal of repetitions and a test change places. -/
theorem distinctItems_filter {p : Item → Bool} (herror : ∀ e, p (.error e) = true)
    {seen seen' : List Element} (hseen : ∀ x, p (.ok x) = true → (x ∈ seen ↔ x ∈ seen'))
    (items : List Item) :
    distinctItems seen (items.filter p) = (distinctItems seen' items).filter p := by
  induction items generalizing seen seen' with
  | nil => rfl
  | cons item rest ih =>
    cases item with
    | error e =>
      rw [List.filter_cons_of_pos (herror e), distinctItems, distinctItems,
        List.filter_cons_of_pos (herror e), ih hseen]
    | ok x =>
      rw [distinctItems]
      by_cases hpass : p (.ok x) = true
      · rw [List.filter_cons_of_pos hpass, distinctItems]
        by_cases hold : x ∈ seen
        · rw [if_pos hold, if_pos ((hseen x hpass).mp hold), ih hseen]
        · have hnext : ∀ y, p (.ok y) = true → (y ∈ x :: seen ↔ y ∈ x :: seen') := by
            intro y hy
            rw [List.mem_cons, List.mem_cons, hseen y hy]
          rw [if_neg hold, if_neg fun h ↦ hold ((hseen x hpass).mpr h),
            List.filter_cons_of_pos hpass, ih hnext]
      · rw [List.filter_cons_of_neg hpass]
        split
        · exact ih hseen
        · have hnext : ∀ y, p (.ok y) = true → (y ∈ seen ↔ y ∈ x :: seen') := by
            intro y hy
            have hne : y ≠ x := fun h ↦ hpass (h ▸ hy)
            rw [List.mem_cons, hseen y hy]
            exact (or_iff_right hne).symm
          rw [List.filter_cons_of_neg hpass, ih hnext]

/-! ## The laws -/

section Laws

variable {g : Graph} {items : List Item}

theorem denoteFrom_distinct_distinct (g : Graph) (items : List Item) :
    denoteFrom g [.distinct, .distinct] items = denoteFrom g [.distinct] items :=
  distinctItems_distinctItems (List.Subset.refl []) items

theorem denoteFrom_limit_limit (g : Graph) (n m : Nat) (items : List Item) :
    denoteFrom g [.limit n, .limit m] items = denoteFrom g [.limit (min n m)] items :=
  limitItems_limitItems n m items

theorem denoteFrom_excludeIds_excludeIds {s t u : List ElementId}
    (hu : ∀ id, id ∈ u ↔ id ∈ s ∨ id ∈ t) (hitems : ∀ item ∈ items, IsItemOf g item) :
    denoteFrom g [.excludeIds s, .excludeIds t] items = denoteFrom g [.excludeIds u] items := by
  have htest : (ElementStep.excludeIds u).IsTest := rfl
  calc denoteFrom g [.excludeIds s, .excludeIds t] items
      = items.filter fun item ↦ (ElementStep.excludeIds s).passes g item
          && (ElementStep.excludeIds t).passes g item := denoteFrom_tests rfl rfl hitems
    _ = items.filter ((ElementStep.excludeIds u).passes g) :=
        List.filter_congr fun item hitem ↦ ElementStep.passes_union hu (hitems item hitem)
    _ = denoteFrom g [.excludeIds u] items := (Step.items_of_isTest htest hitems).symm

theorem denoteFrom_test_distinct {test : ElementStep} (htest : test.IsTest)
    (hitems : ∀ item ∈ items, IsItemOf g item) :
    denoteFrom g [.element test, .distinct] items
      = denoteFrom g [.distinct, .element test] items := by
  have hkept : ∀ item ∈ distinctItems [] items, IsItemOf g item := fun item hitem ↦
    hitems item (mem_of_mem_distinctItems hitem)
  calc denoteFrom g [.element test, .distinct] items
      = distinctItems [] (items.filter (test.passes g)) := by
        rw [← Step.items_of_isTest htest hitems]
        rfl
    _ = (distinctItems [] items).filter (test.passes g) :=
        distinctItems_filter (fun _ ↦ rfl) (fun _ _ ↦ Iff.rfl) items
    _ = denoteFrom g [.distinct, .element test] items := (Step.items_of_isTest htest hkept).symm

theorem denoteFrom_selections {a b : Step} (ha : a.Selects) (hb : b.Selects)
    (hitems : ∀ item ∈ items, IsItemOf g item) :
    denoteFrom g [a, b] items = denoteFrom g [b, a] items := by
  rcases ha with rfl | ⟨a, ha, rfl⟩ <;> rcases hb with rfl | ⟨b, hb, rfl⟩
  · rfl
  · exact (denoteFrom_test_distinct hb hitems).symm
  · exact denoteFrom_test_distinct ha hitems
  · rw [denoteFrom_tests ha hb hitems, denoteFrom_tests hb ha hitems]
    exact List.filter_congr fun item _ ↦ Bool.and_comm _ _

end Laws

namespace Graph

/-- **The algebra of selections.** In the middle of any traversal of a reachable graph, removing
repetitions twice is removing them once, two limits are the smaller one, and two lists of excluded
ids are their union. Steps that select change places behind any calls. In front of all calls there
is no list either way, but the error names the step that comes first. -/
theorem Reachable.selection_laws {g : Graph} (hg : g.Reachable) (calls : List Call) :
    Interchangeable g calls [.distinct, .distinct] [.distinct] ∧
    (∀ n m, Interchangeable g calls [.limit n, .limit m] [.limit (min n m)]) ∧
    (∀ s t u, (∀ id, id ∈ u ↔ id ∈ s ∨ id ∈ t) →
      Interchangeable g calls [.excludeIds s, .excludeIds t] [.excludeIds u]) ∧
    ∀ a b : Step, a.Selects → b.Selects →
      (calls ≠ [] → Interchangeable g calls [a, b] [b, a]) ∧
      (calls = [] → ∀ rest, ((build g (calls ++ ([a, b] ++ rest).map .step)).toList g).1
        = .error (.invalidState (.stepBeforeStart a.name))) := by
  have hwell := hg.wellFormed
  refine ⟨interchangeable_of_name hwell rfl fun items _ ↦ denoteFrom_distinct_distinct g items,
    fun n m ↦ interchangeable_of_name hwell rfl fun items _ ↦ denoteFrom_limit_limit g n m items,
    fun s t u hu ↦ interchangeable_of_name hwell rfl fun items hitems ↦
      denoteFrom_excludeIds_excludeIds hu hitems,
    fun a b ha hb ↦ ⟨fun hcalls ↦ interchangeable hwell hcalls fun p _ hitems ↦
      denoteFrom_selections ha hb hitems, ?_⟩⟩
  rintro rfl rest
  exact toList_unstarted g a (b :: rest)

/-- Of the five maps one has an id to project, and the other four are errors behind it. -/
theorem selection_laws_disguised :
    let calls : List Call := [.vertices, .step (.properties false), .step .id]
    let answer := fun steps : List Step ↦
      ((build disguised (calls ++ steps.map .step)).toList disguised).1
    disguised.Reachable ∧
    answer [.excludeIds [.name "a"], .excludeIds [.name "c"], .limit 1]
      = .ok [.id (.name "b")] ∧
    answer [.excludeIds [.name "c", .name "a"], .limit 1] = .ok [.id (.name "b")] ∧
    answer [.distinct, .excludeIds [.name "b"]]
      = .error (.invalidState (.idMissing .properties)) ∧
    answer [.excludeIds [.name "b"], .distinct]
      = .error (.invalidState (.idMissing .properties)) ∧
    answer [.limit 5, .limit 1, .hasLabel ["page"], .distinct] = .ok [] ∧
    answer [.limit 1, .hasLabel ["page"], .distinct] = .ok [] := by
  intro calls answer
  obtain ⟨-, hlimit, hunion, hcomm⟩ := reachable_disguised.selection_laws calls
  have hexclude := hunion [.name "a"] [.name "c"] [.name "c", .name "a"]
    (fun id ↦ by simp [or_comm]) [.limit 1]
  have htest : (ElementStep.excludeIds [.name "b"]).IsTest := rfl
  have hswap := (hcomm .distinct (.excludeIds [.name "b"]) (.inl rfl) (.inr ⟨_, htest, rfl⟩)).1
    (List.cons_ne_nil _ _) []
  have hshort := hlimit 5 1 [.hasLabel ["page"], .distinct]
  have hfound : answer [.excludeIds [.name "c", .name "a"], .limit 1] = .ok [.id (.name "b")] := by
    decide +kernel
  have hfailed : answer [.excludeIds [.name "b"], .distinct]
      = .error (.invalidState (.idMissing .properties)) := by decide +kernel
  have hnone : answer [.limit 1, .hasLabel ["page"], .distinct] = .ok [] := by decide +kernel
  exact ⟨reachable_disguised, hexclude.trans hfound, hfound, hswap.trans hfailed, hfailed,
    hshort.trans hnone, hnone⟩

/-- In front of all calls it does matter which selection comes first. -/
theorem selections_unstarted :
    let answer := fun calls ↦ ((build .empty calls).toList .empty).1
    empty.Reachable ∧
    answer [.step (.has "k" (.integer 1)), .step (.excludeIds [.name "a"])]
      = .error (.invalidState (.stepBeforeStart "has")) ∧
    answer [.step (.excludeIds [.name "a"]), .step (.has "k" (.integer 1))]
      = .error (.invalidState (.stepBeforeStart "exclude_ids")) ∧
    ¬Interchangeable .empty [] [.has "k" (.integer 1), .excludeIds [.name "a"]]
      [.excludeIds [.name "a"], .has "k" (.integer 1)] := by
  intro answer
  have hhas : answer [.step (.has "k" (.integer 1)), .step (.excludeIds [.name "a"])]
      = .error (.invalidState (.stepBeforeStart "has")) := toList_unstarted _ _ [_]
  have hexclude : answer [.step (.excludeIds [.name "a"]), .step (.has "k" (.integer 1))]
      = .error (.invalidState (.stepBeforeStart "exclude_ids")) := toList_unstarted _ _ [_]
  refine ⟨.empty, hhas, hexclude, fun h ↦ ?_⟩
  have hsame := hhas.symm.trans ((h []).trans hexclude)
  exact absurd hsame (by decide)

end Graph

end BookmarkGraph
