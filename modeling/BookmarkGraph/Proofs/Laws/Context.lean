import BookmarkGraph.Proofs.Builder

/-!
# Laws of traversals hold in every context

A law says that two chains of steps make the same of the same items. It is then the same to have one
or the other in the middle of a traversal: the calls in front decide about the items and nothing
else, the steps behind are applied to equal items, and an error in front hides both. Only where
there is no call in front the first step of either chain reports itself, because a traversal cannot
start with a step.

Items are those of a graph, `IsItemOf`: every vertex and every edge is in the graph. A law may rely
on this, and on what the calls in front are known to deliver.
-/

namespace BookmarkGraph

/-- What a chain of steps makes of items. -/
def denoteFrom (g : Graph) (steps : List Step) (items : List Item) : List Item :=
  steps.foldl (fun items step ↦ step.items g items) items

theorem denoteFrom_append (g : Graph) (steps more : List Step) (items : List Item) :
    denoteFrom g (steps ++ more) items = denoteFrom g more (denoteFrom g steps items) :=
  List.foldl_append

theorem denote_append (g : Graph) (steps more : List Step) (source : List Element) :
    denote g (steps ++ more) source = denoteFrom g more (denote g steps source) := List.foldl_append

section Pairs

variable {g : Graph} {a b c d : ElementStep} {items : List Item}

theorem denoteFrom_pair : denoteFrom g [.element a, .element b] items
    = items.flatMap fun item ↦ (a.items g item).flatMap (b.items g) := List.flatMap_assoc

/-- Pairs of steps that treat every element on its own are compared item by item. -/
theorem denoteFrom_pair_congr (h : ∀ item ∈ items,
      (a.items g item).flatMap (b.items g) = (c.items g item).flatMap (d.items g)) :
    denoteFrom g [.element a, .element b] items = denoteFrom g [.element c, .element d] items := by
  rw [denoteFrom_pair, denoteFrom_pair]
  exact List.flatMap_congr h

theorem denoteFrom_pair_absorb
    (h : ∀ item ∈ items, (a.items g item).flatMap (b.items g) = a.items g item) :
    denoteFrom g [.element a, .element b] items = denoteFrom g [.element a] items := by
  rw [denoteFrom_pair]
  exact List.flatMap_congr h

end Pairs

namespace Query

variable {g : Graph} {calls : List Call} {left right : List Step}

/-- Behind these calls one chain of steps can take the place of the other: whatever steps follow,
there is the same list or the same error. -/
def Interchangeable (g : Graph) (calls : List Call) (left right : List Step) : Prop :=
  ∀ rest : List Step, ((build g (calls ++ (left ++ rest).map .step)).toList g).1
    = ((build g (calls ++ (right ++ rest).map .step)).toList g).1

/-- Behind these calls one chain of steps can take the place of the other, except that failures may
be reported differently: whatever steps follow, there is the same list or none. -/
def SameList (g : Graph) (calls : List Call) (left right : List Step) : Prop :=
  ∀ rest : List Step, ((build g (calls ++ (left ++ rest).map .step)).toList g).1.toOption
    = ((build g (calls ++ (right ++ rest).map .step)).toList g).1.toOption

theorem Interchangeable.sameList (h : Interchangeable g calls left right) :
    SameList g calls left right := fun rest ↦ congrArg Except.toOption (h rest)

theorem toList_unstarted (g : Graph) (step : Step) (steps : List Step) :
    ((build g ((step :: steps).map .step)).toList g).1
      = .error (.invalidState (.stepBeforeStart step.name)) := by
  have hfirst : (build g [.step step]).outcome
      = .error (.invalidState (.stepBeforeStart step.name)) := outcome_call_empty g (.step step)
  exact toList_error (outcome_build_append_error hfirst (steps.map .step))

theorem toList_build_append {p : Pipeline} (hp : (build g calls).outcome = .ok p)
    (hcalls : calls ≠ []) (steps : List Step) :
    ((build g (calls ++ steps.map .step)).toList g).1
      = collect (denoteFrom g steps (p.items g)) := by
  obtain ⟨first, before, source, rfl, hsource⟩ := (calls_of_outcome_ok hp).resolve_left hcalls
  rw [List.cons_append, ← List.map_append, toList_build_start hsource, denote_append,
    (items_of_outcome_build hsource hp).2]

theorem isItemOf_outcome_build (hg : g.WellFormed) {p : Pipeline}
    (hp : (build g calls).outcome = .ok p) (hcalls : calls ≠ []) :
    ∀ item ∈ p.items g, IsItemOf g item := by
  obtain ⟨first, steps, source, rfl, hsource⟩ := (calls_of_outcome_ok hp).resolve_left hcalls
  rw [(items_of_outcome_build hsource hp).2]
  refine isItemOf_denote hg steps fun x hx ↦ ?_
  obtain ⟨index, rfl, hindex⟩ := Call.source_spec hg hsource x hx
  exact hindex

/-- The calls deliver elements of one kind only, and errors. -/
def Delivers (g : Graph) (calls : List Call) (kind : ElementKind) : Prop :=
  ∀ p x, (build g calls).outcome = .ok p → .ok x ∈ p.items g → x.kind = kind

theorem delivers_of_denote {first : Call} {steps : List Step} {source : List Element}
    {kind : ElementKind} (hsource : first.source g = .ok source)
    (hall : ∀ item ∈ denote g steps source, item.toOption.all (·.kind = kind) = true) :
    Delivers g (first :: steps.map .step) kind := by
  intro p x hp hx
  rw [(items_of_outcome_build hsource hp).2] at hx
  exact of_decide_eq_true (hall _ hx)

/-- **A law of items holds in every traversal that has been started.** -/
theorem interchangeable (hg : g.WellFormed) (hcalls : calls ≠ [])
    (hlaw : ∀ p, (build g calls).outcome = .ok p → (∀ item ∈ p.items g, IsItemOf g item) →
      denoteFrom g left (p.items g) = denoteFrom g right (p.items g)) :
    Interchangeable g calls left right := by
  intro rest
  cases hp : (build g calls).outcome with
  | error e =>
    rw [toList_error (outcome_build_append_error hp _),
      toList_error (outcome_build_append_error hp _)]
  | ok p =>
    rw [toList_build_append hp hcalls, toList_build_append hp hcalls, denoteFrom_append,
      denoteFrom_append, hlaw p hp (isItemOf_outcome_build hg hp hcalls)]

/-- A law about all items holds even where no call is in front, if both chains start with steps of
one name. -/
theorem interchangeable_of_name (hg : g.WellFormed) {first first' : Step} {steps steps' : List Step}
    (hname : first.name = first'.name)
    (hlaw : ∀ items, (∀ item ∈ items, IsItemOf g item) →
      denoteFrom g (first :: steps) items = denoteFrom g (first' :: steps') items) :
    Interchangeable g calls (first :: steps) (first' :: steps') := by
  cases calls with
  | nil =>
    intro rest
    rw [List.nil_append, List.nil_append, List.cons_append, List.cons_append, toList_unstarted,
      toList_unstarted, hname]
  | cons call calls =>
    exact interchangeable hg (List.cons_ne_nil call calls) fun p _ ↦ hlaw (p.items g)

/-- Where no call is in front, there is no list, whichever chain of steps is taken. -/
theorem sameList_of_interchangeable (hleft : left ≠ []) (hright : right ≠ [])
    (h : calls ≠ [] → Interchangeable g calls left right) : SameList g calls left right := by
  cases calls with
  | nil =>
    obtain ⟨first, steps, rfl⟩ := List.exists_cons_of_ne_nil hleft
    obtain ⟨first', steps', rfl⟩ := List.exists_cons_of_ne_nil hright
    intro rest
    rw [List.nil_append, List.nil_append, List.cons_append, List.cons_append, toList_unstarted,
      toList_unstarted]
    rfl
  | cons call calls => exact (h (List.cons_ne_nil call calls)).sameList

end Query

end BookmarkGraph
