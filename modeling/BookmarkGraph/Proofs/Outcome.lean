import Mathlib.Data.List.Induction

/-!
# Computations that can fail

What the success of a computation in `Except` says about its parts: a sequence succeeds part by
part, a fold keeps an invariant that knows what has been folded, and a traversal answers element by
element.
-/

namespace BookmarkGraph

variable {α β ε : Type}

theorem ok_bind (a : α) (f : α → Except ε β) : (.ok a : Except ε α) >>= f = f a := rfl

theorem bind_eq_ok {x : Except ε α} {f : α → Except ε β} {b : β} :
    x >>= f = .ok b ↔ ∃ a, x = .ok a ∧ f a = .ok b := by
  cases x with
  | error e => simp [bind, Except.bind]
  | ok a => simp [bind, Except.bind]

theorem map_eq_ok {x : Except ε α} {f : α → β} {b : β} :
    x.map f = .ok b ↔ ∃ a, x = .ok a ∧ f a = b := by
  cases x with
  | error e => simp [Except.map]
  | ok a => simp [Except.map]

/-- Both ways in which a computation can end: an error is a fault of the given kind, and an answer
is a result of the given kind. -/
def Yields (fault : ε → Prop) (result : α → Prop) : Except ε α → Prop
  | .error e => fault e
  | .ok a => result a

theorem Yields.bind {fault fault' : ε → Prop} {result : α → Prop} {result' : β → Prop}
    {x : Except ε α} {f : α → Except ε β} (h : Yields fault result x)
    (hfault : ∀ e, fault e → fault' e) (hf : ∀ a, result a → Yields fault' result' (f a)) :
    Yields fault' result' (x >>= f) := by
  cases x with
  | error e => exact hfault e h
  | ok a => exact hf a h

/-- A fold that succeeds keeps an invariant over what has been folded so far. -/
theorem foldlM_invariant {f : β → α → Except ε β} (P : List α → β → Prop)
    (hstep : ∀ done x b b', P done b → f b x = .ok b' → P (done ++ [x]) b')
    {xs : List α} {b b' : β} (hstart : P [] b) (h : xs.foldlM f b = .ok b') : P xs b' := by
  induction xs using List.reverseRecOn generalizing b' with
  | nil =>
    rw [← Except.ok.inj h]
    exact hstart
  | append_singleton done x ih =>
    rw [List.foldlM_append] at h
    obtain ⟨c, hdone, hx⟩ := bind_eq_ok.mp h
    rw [List.foldlM_cons] at hx
    obtain ⟨c', hx, hc⟩ := bind_eq_ok.mp hx
    rw [← Except.ok.inj hc]
    exact hstep done x c c' (ih hdone) hx

theorem foldlM_keeps {f : β → α → Except ε β} (P : β → Prop) {xs : List α}
    (hstep : ∀ x ∈ xs, ∀ b b', P b → f b x = .ok b' → P b')
    {b b' : β} (hstart : P b) (h : xs.foldlM f b = .ok b') : P b' := by
  induction xs generalizing b with
  | nil =>
    rw [← Except.ok.inj h]
    exact hstart
  | cons x xs ih =>
    rw [List.foldlM_cons] at h
    obtain ⟨c, hx, h⟩ := bind_eq_ok.mp h
    exact ih (fun y hy ↦ hstep y (List.mem_cons_of_mem x hy))
      (hstep x List.mem_cons_self b c hstart hx) h

theorem exists_of_mem_mapM {f : α → Except ε β} {xs : List α} {ys : List β}
    (h : xs.mapM f = .ok ys) {y : β} (hy : y ∈ ys) : ∃ x ∈ xs, f x = .ok y := by
  induction xs generalizing ys with
  | nil =>
    rw [← Except.ok.inj h] at hy
    exact absurd hy List.not_mem_nil
  | cons x xs ih =>
    rw [List.mapM_cons] at h
    obtain ⟨z, hx, h⟩ := bind_eq_ok.mp h
    obtain ⟨zs, hxs, h⟩ := bind_eq_ok.mp h
    rw [← Except.ok.inj h] at hy
    rcases List.mem_cons.mp hy with rfl | hy
    · exact ⟨x, List.mem_cons_self, hx⟩
    · obtain ⟨x', hmem, hx'⟩ := ih hxs hy
      exact ⟨x', List.mem_cons_of_mem x hmem, hx'⟩

/-- What a traversal answers looks like the elements, element by element, where each single answer
does. -/
theorem map_of_mapM {γ : Type} {f : α → Except ε β} {F : β → γ} {G : α → γ} {xs : List α}
    {ys : List β} (h : xs.mapM f = .ok ys) (hf : ∀ x ∈ xs, ∀ y, f x = .ok y → F y = G x) :
    ys.map F = xs.map G := by
  induction xs generalizing ys with
  | nil =>
    rw [← Except.ok.inj h]
    rfl
  | cons x xs ih =>
    rw [List.mapM_cons] at h
    obtain ⟨z, hx, h⟩ := bind_eq_ok.mp h
    obtain ⟨zs, hxs, h⟩ := bind_eq_ok.mp h
    rw [← Except.ok.inj h, List.map_cons, List.map_cons, hf x List.mem_cons_self z hx,
      ih hxs fun y hy ↦ hf y (List.mem_cons_of_mem x hy)]

theorem mapM_eq_ok_map {f : α → Except ε β} {g : α → β} {xs : List α}
    (h : ∀ x ∈ xs, f x = .ok (g x)) : xs.mapM f = .ok (xs.map g) := by
  induction xs with
  | nil => rfl
  | cons x xs ih =>
    rw [List.mapM_cons, h x List.mem_cons_self, ih fun y hy ↦ h y (List.mem_cons_of_mem x hy)]
    rfl

theorem mapM_eq_ok_of_map {f : α → Except ε β} {xs : List α} {ys : List β}
    (h : xs.map f = ys.map .ok) : xs.mapM f = .ok ys := by
  induction xs generalizing ys with
  | nil =>
    rw [List.map_nil, eq_comm, List.map_eq_nil_iff] at h
    rw [h]
    rfl
  | cons x xs ih =>
    obtain ⟨y, ys, rfl, hy, hys⟩ := List.map_eq_cons_iff.mp h.symm
    rw [List.mapM_cons, ← hy, ih hys.symm]
    rfl

/-- Where each element ends in one of two ways, the traversal does. -/
theorem yields_mapM {fault : ε → Prop} {P : α → Prop} {f : α → Except ε β} {xs : List α}
    (h : ∀ x ∈ xs, Yields fault (fun _ ↦ P x) (f x)) :
    Yields fault (fun _ ↦ ∀ x ∈ xs, P x) (xs.mapM f) := by
  induction xs with
  | nil => exact fun x hx ↦ absurd hx List.not_mem_nil
  | cons x xs ih =>
    rw [List.mapM_cons]
    refine (h x List.mem_cons_self).bind (fun _ he ↦ he) fun y hx ↦ ?_
    refine (ih fun z hz ↦ h z (List.mem_cons_of_mem x hz)).bind (fun _ he ↦ he) fun ys hxs ↦ ?_
    exact List.forall_mem_cons.mpr ⟨hx, hxs⟩

theorem exists_mapM_eq_ok {f : α → Except ε β} {xs : List α} (h : ∀ x ∈ xs, ∃ y, f x = .ok y) :
    ∃ ys, xs.mapM f = .ok ys := by
  induction xs with
  | nil => exact ⟨[], rfl⟩
  | cons x xs ih =>
    obtain ⟨y, hy⟩ := h x List.mem_cons_self
    obtain ⟨ys, hys⟩ := ih fun z hz ↦ h z (List.mem_cons_of_mem x hz)
    refine ⟨y :: ys, ?_⟩
    rw [List.mapM_cons, hy, ok_bind, hys]
    rfl

theorem mapM_append_error {f : α → Except ε β} {before : List α} {x : α} {e : ε}
    (hbefore : ∀ y ∈ before, ∃ z, f y = .ok z) (hx : f x = .error e) (after : List α) :
    (before ++ x :: after).mapM f = .error e := by
  induction before with
  | nil =>
    rw [List.nil_append, List.mapM_cons, hx]
    rfl
  | cons y before ih =>
    obtain ⟨z, hz⟩ := hbefore y List.mem_cons_self
    rw [List.cons_append, List.mapM_cons, hz, ok_bind,
      ih fun w hw ↦ hbefore w (List.mem_cons_of_mem y hw)]
    rfl

theorem foldlM_eq_ok_foldl {f : β → α → Except ε β} {f' : β → α → β} {xs : List α}
    (h : ∀ x ∈ xs, ∀ b, f b x = .ok (f' b x)) (b : β) : xs.foldlM f b = .ok (xs.foldl f' b) := by
  induction xs generalizing b with
  | nil => rfl
  | cons x xs ih =>
    rw [List.foldlM_cons, h x List.mem_cons_self b, ok_bind, List.foldl_cons]
    exact ih (fun y hy ↦ h y (List.mem_cons_of_mem x hy)) (f' b x)

theorem exists_foldlM_eq_ok {f : β → α → Except ε β} {xs : List α}
    (h : ∀ x ∈ xs, ∀ b, ∃ b', f b x = .ok b') (b : β) : ∃ b', xs.foldlM f b = .ok b' := by
  induction xs generalizing b with
  | nil => exact ⟨b, rfl⟩
  | cons x xs ih =>
    obtain ⟨c, hc⟩ := h x List.mem_cons_self b
    rw [List.foldlM_cons, hc]
    exact ih (fun y hy ↦ h y (List.mem_cons_of_mem x hy)) c

end BookmarkGraph
