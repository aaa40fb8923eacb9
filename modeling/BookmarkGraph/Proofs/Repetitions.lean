import Mathlib.Data.List.Induction

/-!
# Removing repetitions

`List.eraseDups` keeps the first occurrence of every element, so it says which elements a list has
and in which order they are first met, but not how often. This file shows which operations cannot
notice how often: a filter, the concatenation of two lists, and a walk that takes every element to
a list of its own.

All inductions run from the back of a list, since what comes first is not changed by what comes
later. The step is `eraseDups_append_singleton`.
-/

namespace BookmarkGraph

variable {α β : Type} [BEq α] [LawfulBEq α] [BEq β] [LawfulBEq β]

theorem eraseDups_append_singleton (xs : List α) (x : α) :
    (xs ++ [x]).eraseDups = if x ∈ xs then xs.eraseDups else xs.eraseDups ++ [x] := by
  rw [List.eraseDups_append]
  split
  · rename_i h
    have hgone : [x].removeAll xs = [] := by simp [List.removeAll, h]
    rw [hgone, List.eraseDups_nil, List.append_nil]
  · rename_i h
    have hstays : [x].removeAll xs = [x] := by simp [List.removeAll, h]
    rw [hstays, List.eraseDups_cons, List.filter_nil, List.eraseDups_nil]

theorem eraseDups_sublist (xs : List α) : xs.eraseDups.Sublist xs := by
  induction xs using List.reverseRecOn with
  | nil => exact List.Sublist.refl []
  | append_singleton xs x ih =>
    rw [eraseDups_append_singleton]
    split
    · exact ih.trans (List.sublist_append_left xs [x])
    · exact ih.append (List.Sublist.refl [x])

theorem nodup_eraseDups (xs : List α) : xs.eraseDups.Nodup := by
  induction xs using List.reverseRecOn with
  | nil => exact List.nodup_nil
  | append_singleton xs x ih =>
    rw [eraseDups_append_singleton]
    split
    · exact ih
    · rename_i hnew
      refine List.nodup_append.mpr ⟨ih, by simp, fun y hy z hz ↦ ?_⟩
      rw [List.mem_singleton.mp hz]
      exact fun heq ↦ hnew (heq ▸ List.mem_eraseDups.mp hy)

theorem eraseDups_filter (xs : List α) (p : α → Bool) :
    (xs.filter p).eraseDups = xs.eraseDups.filter p := by
  induction xs using List.reverseRecOn with
  | nil => rfl
  | append_singleton xs x ih =>
    rw [List.filter_append, eraseDups_append_singleton]
    by_cases hp : p x = true
    · rw [List.filter_cons_of_pos hp, List.filter_nil, eraseDups_append_singleton, ih]
      by_cases hmem : x ∈ xs
      · rw [if_pos hmem, if_pos (List.mem_filter.mpr ⟨hmem, hp⟩)]
      · rw [if_neg hmem, if_neg fun h ↦ hmem (List.mem_filter.mp h).1, List.filter_append,
          List.filter_cons_of_pos hp, List.filter_nil]
    · rw [List.filter_cons_of_neg hp, List.filter_nil, List.append_nil, ih]
      split
      · rfl
      · rw [List.filter_append, List.filter_cons_of_neg hp, List.filter_nil, List.append_nil]

theorem eraseDups_map {xs : List α} {f : α → β} (hf : ∀ x ∈ xs, ∀ y ∈ xs, f x = f y → x = y) :
    (xs.map f).eraseDups = xs.eraseDups.map f := by
  induction xs using List.reverseRecOn with
  | nil => rfl
  | append_singleton xs x ih =>
    have hinit : ∀ y ∈ xs, ∀ z ∈ xs, f y = f z → y = z := fun y hy z hz ↦
      hf y (List.mem_append_left _ hy) z (List.mem_append_left _ hz)
    have hmem : f x ∈ xs.map f ↔ x ∈ xs := by
      refine ⟨fun h ↦ ?_, List.mem_map_of_mem⟩
      obtain ⟨y, hy, heq⟩ := List.mem_map.mp h
      rwa [← hf y (List.mem_append_left _ hy) x (List.mem_append_right _ List.mem_cons_self) heq]
    rw [List.map_append, List.map_singleton, eraseDups_append_singleton, ih hinit,
      eraseDups_append_singleton]
    by_cases h : x ∈ xs
    · rw [if_pos h, if_pos (hmem.mpr h)]
    · rw [if_neg h, if_neg fun hx ↦ h (hmem.mp hx), List.map_append, List.map_singleton]

theorem mem_congr_of_eraseDups {xs ys : List α} (h : xs.eraseDups = ys.eraseDups) {x : α} :
    x ∈ xs ↔ x ∈ ys := by
  rw [← List.mem_eraseDups, h, List.mem_eraseDups]

theorem eraseDups_append_congr {xs xs' ys ys' : List α} (hx : xs.eraseDups = xs'.eraseDups)
    (hy : ys.eraseDups = ys'.eraseDups) : (xs ++ ys).eraseDups = (xs' ++ ys').eraseDups := by
  have hnew : ∀ y, (!xs.elem y) = !xs'.elem y := by
    intro y
    rw [Bool.not_inj_iff, Bool.eq_iff_iff, List.elem_iff, List.elem_iff,
      mem_congr_of_eraseDups hx]
  rw [List.eraseDups_append, List.eraseDups_append, hx, List.removeAll, List.removeAll,
    eraseDups_filter, eraseDups_filter, hy, List.filter_congr fun y _ ↦ hnew y]

/-- A walk meets the same elements first, however often it comes by one of them. -/
theorem eraseDups_flatMap_eraseDups (xs : List α) (f : α → List β) :
    (xs.eraseDups.flatMap f).eraseDups = (xs.flatMap f).eraseDups := by
  induction xs using List.reverseRecOn with
  | nil => rfl
  | append_singleton xs x ih =>
    rw [eraseDups_append_singleton, List.flatMap_append, List.flatMap_singleton]
    split
    · -- a second visit leads to nothing that the first has not led to
      rename_i hmem
      have hgone : (f x).removeAll (xs.flatMap f) = [] := by
        rw [List.removeAll, List.filter_eq_nil_iff]
        intro y hy
        have hold : y ∈ xs.flatMap f := List.mem_flatMap.mpr ⟨x, hmem, hy⟩
        simp [hold]
      rw [ih, List.eraseDups_append, hgone, List.eraseDups_nil, List.append_nil]
    · rw [List.flatMap_append, List.flatMap_singleton]
      exact eraseDups_append_congr ih rfl

/-- What is met first on a walk depends on what is met first where it starts and on what is met
first from every single place. -/
theorem eraseDups_flatMap {xs ys : List α} {f f' : α → List β} (hxs : xs.eraseDups = ys.eraseDups)
    (hf : ∀ x, (f x).eraseDups = (f' x).eraseDups) :
    (xs.flatMap f).eraseDups = (ys.flatMap f').eraseDups := by
  have hplaces : ∀ zs : List α, (zs.flatMap f).eraseDups = (zs.flatMap f').eraseDups := by
    intro zs
    induction zs with
    | nil => rfl
    | cons z zs ih =>
      rw [List.flatMap_cons, List.flatMap_cons]
      exact eraseDups_append_congr (hf z) ih
  rw [← eraseDups_flatMap_eraseDups, hxs, eraseDups_flatMap_eraseDups, hplaces ys]

end BookmarkGraph
