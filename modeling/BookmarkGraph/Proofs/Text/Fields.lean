import BookmarkGraph.Text.Fields
import Mathlib.Data.List.DropRight

/-!
# Fields, with white space around them

A field stands in a text with white space around it, and trimming is what forgets this white space.
Cutting comes first and trimming after it, on every level anew, so what the levels have to agree on
is that white space around a text changes nothing about its fields: not where it is cut for the
first time, `splitOnce_trim`, and not what it is a list of, `list_trim`. All that is used of a
delimiter is that it is no white space itself.
-/

namespace BookmarkGraph.Fields

/-- White space, possibly none. -/
def Spaces (ws : List Char) : Prop := ∀ c ∈ ws, isSpace c = true

instance : DecidablePred Spaces := fun ws ↦
  decidable_of_iff (ws.all isSpace = true) List.all_eq_true

/-- A text with white space around it. -/
inductive Padded (text : List Char) : List Char → Prop
  | around {front back : List Char} : Spaces front → Spaces back →
    Padded text (front ++ (text ++ back))

/-- A text that has no white space at its ends. -/
structure Trimmed (text : List Char) : Prop where
  /-- It does not begin with white space. -/
  head : ∀ c, text.head? = some c → isSpace c = false
  /-- It does not end with white space. -/
  last : ∀ c, text.getLast? = some c → isSpace c = false

variable {d : Char} {ws text padded front back : List Char}

theorem spaces_nil : Spaces [] := fun _ h ↦ absurd h List.not_mem_nil

theorem Padded.refl (text : List Char) : Padded text text := by
  have hpadded : Padded text ([] ++ (text ++ [])) := .around spaces_nil spaces_nil
  rwa [List.nil_append, List.append_nil] at hpadded

theorem not_mem_of_spaces (hd : isSpace d = false) (h : Spaces ws) : d ∉ ws :=
  fun hmem ↦ Bool.false_ne_true (hd.symm.trans (h d hmem))

theorem Padded.mem_iff (h : Padded text padded) (hd : isSpace d = false) :
    d ∈ padded ↔ d ∈ text := by
  obtain ⟨hfront, hback⟩ := h
  rw [List.mem_append, List.mem_append, or_iff_right (not_mem_of_spaces hd hfront),
    or_iff_left (not_mem_of_spaces hd hback)]

/-! ## Trimming -/

theorem trim_eq (text : List Char) :
    trim text = (text.dropWhile isSpace).rdropWhile isSpace := rfl

theorem trim_append_left (h : Spaces ws) (text : List Char) : trim (ws ++ text) = trim text := by
  rw [trim_eq, List.dropWhile_append_of_pos h, ← trim_eq]

theorem trim_concat {c : Char} (hc : isSpace c = true) (text : List Char) :
    trim (text ++ [c]) = trim text := by
  rw [trim_eq, List.dropWhile_append, trim_eq]
  split
  · rename_i hspaces
    rw [List.isEmpty_iff.mp hspaces, List.dropWhile_cons_of_pos hc, List.dropWhile_nil]
  · rw [List.rdropWhile_concat, if_pos hc]

theorem trim_append_right (h : Spaces ws) (text : List Char) : trim (text ++ ws) = trim text := by
  induction ws generalizing text with
  | nil => rw [List.append_nil]
  | cons c ws ih =>
    have hws : Spaces ws := fun c' hc' ↦ h c' (List.mem_cons_of_mem _ hc')
    rw [← List.singleton_append, ← List.append_assoc, ih hws, trim_concat (h c List.mem_cons_self)]

theorem Padded.trim_eq (h : Padded text padded) : trim padded = trim text := by
  obtain ⟨hfront, hback⟩ := h
  rw [trim_append_left hfront, trim_append_right hback]

/-- Every text is what is left of it by trimming, with white space around it. -/
theorem padded_trim (text : List Char) : Padded (trim text) text := by
  have hfront : Spaces (text.takeWhile isSpace) := fun c hc ↦ List.mem_takeWhile_imp hc
  have hback : Spaces ((text.dropWhile isSpace).rtakeWhile isSpace) := fun c hc ↦
    List.mem_rtakeWhile_imp hc
  have hpadded : Padded (trim text) (_ ++ (trim text ++ _)) := .around hfront hback
  rwa [trim_eq, List.rdropWhile_append_rtakeWhile, List.takeWhile_append_dropWhile] at hpadded

theorem Trimmed.trim_eq_self (h : Trimmed text) : trim text = text := by
  have hhead : text.dropWhile isSpace = text := by
    cases text with
    | nil => rfl
    | cons c rest =>
      exact List.dropWhile_cons_of_neg (by rw [h.head c rfl]; exact Bool.false_ne_true)
  rw [trim_eq, hhead, List.rdropWhile_eq_self_iff]
  intro hne
  rw [h.last _ (List.getLast?_eq_getLast_of_ne_nil hne)]
  exact Bool.false_ne_true

theorem trimmed_trim (text : List Char) : Trimmed (trim text) where
  head c hc := by
    obtain ⟨rest, hrest⟩ := List.rdropWhile_prefix isSpace (text.dropWhile isSpace)
    have hhead : (text.dropWhile isSpace).head? = some c := by
      rw [← hrest, List.head?_append, ← trim_eq, hc, Option.some_or]
    have hnot := List.head?_dropWhile_not isSpace text
    rwa [hhead] at hnot
  last c hc := by
    have hne : trim text ≠ [] := by
      rintro hnil
      rw [hnil] at hc
      cases hc
    rw [List.getLast?_eq_getLast_of_ne_nil hne, Option.some.injEq] at hc
    rw [← hc]
    exact Bool.eq_false_iff.mpr (List.rdropWhile_last_not isSpace (text.dropWhile isSpace) hne)

instance : DecidablePred Trimmed := fun text ↦
  decidable_of_iff (trim text = text) ⟨fun h ↦ h ▸ trimmed_trim text, Trimmed.trim_eq_self⟩

theorem Padded.trim_eq_of_trimmed (h : Padded text padded) (htext : Trimmed text) :
    trim padded = text := h.trim_eq.trans htext.trim_eq_self

theorem trim_eq_nil : trim text = [] ↔ Spaces text := by
  constructor
  · intro htrim
    have hpadded := padded_trim text
    rw [htrim] at hpadded
    obtain ⟨hfront, hback⟩ := hpadded
    exact List.forall_mem_append.mpr ⟨hfront, hback⟩
  · intro h
    rw [← List.append_nil text, trim_append_left h]
    rfl

theorem Padded.not_spaces (h : Padded text padded) (htext : Trimmed text) (hne : text ≠ []) :
    ¬Spaces padded := by
  rwa [← trim_eq_nil, h.trim_eq_of_trimmed htext]

theorem trimmed_of_forall (h : ∀ c ∈ text, isSpace c = false) : Trimmed text where
  head c hc := h c (List.mem_of_head? hc)
  last c hc := h c (List.mem_of_getLast? hc)

/-! ## Cutting once -/

theorem splitOnce_eq_none : splitOnce d text = none ↔ d ∉ text := by
  induction text with
  | nil => exact iff_of_true rfl List.not_mem_nil
  | cons c rest ih =>
    rw [splitOnce]
    split
    · rename_i heq
      exact iff_of_false nofun (not_not_intro (heq ▸ List.mem_cons_self))
    · rename_i hne
      rw [Option.map_eq_none_iff, ih, List.mem_cons, not_or]
      exact ⟨fun h ↦ ⟨fun heq ↦ hne heq.symm, h⟩, And.right⟩

theorem splitOnce_append (h : d ∉ front) (back : List Char) :
    splitOnce d (front ++ d :: back) = some (front, back) := by
  induction front with
  | nil => exact if_pos rfl
  | cons c front ih =>
    obtain ⟨hne, hfront⟩ := not_or.mp (mt List.mem_cons.mpr h)
    rw [List.cons_append, splitOnce, if_neg fun heq ↦ hne heq.symm, ih hfront]
    rfl

theorem eq_append_of_splitOnce (h : splitOnce d text = some (front, back)) :
    d ∉ front ∧ text = front ++ d :: back := by
  induction text generalizing front with
  | nil => cases h
  | cons c rest ih =>
    rw [splitOnce] at h
    split at h
    · rename_i heq
      cases h
      exact ⟨List.not_mem_nil, heq ▸ rfl⟩
    · rename_i hne
      obtain ⟨⟨front', back'⟩, hrest, hcut⟩ := Option.map_eq_some_iff.mp h
      cases hcut
      obtain ⟨hfront, hback⟩ := ih hrest
      exact ⟨List.not_mem_cons_of_ne_of_not_mem (fun heq ↦ hne heq.symm) hfront,
        congrArg (c :: ·) hback⟩

theorem splitOnce_trim_none (hd : isSpace d = false) (h : d ∉ text) :
    splitOnce d (trim text) = none :=
  splitOnce_eq_none.mpr (mt ((padded_trim text).mem_iff hd).mpr h)

/-- White space around a text does not move the place where it is cut. -/
theorem splitOnce_trim (hd : isSpace d = false) (hfront : d ∉ front) (back : List Char) :
    ∃ front' back', splitOnce d (trim (front ++ d :: back)) = some (front', back') ∧
      trim front' = trim front ∧ trim back' = trim back := by
  generalize htext : front ++ d :: back = text
  have hpadded := padded_trim text
  generalize trim text = trimmed at hpadded ⊢
  have hmem : d ∈ trimmed :=
    (hpadded.mem_iff hd).mp (htext ▸ List.mem_append_right _ List.mem_cons_self)
  obtain @⟨ws, ws', hws, hws'⟩ := hpadded
  cases hcut : splitOnce d trimmed with
  | none => exact absurd hmem (splitOnce_eq_none.mp hcut)
  | some cut =>
    obtain ⟨front', back'⟩ := cut
    obtain ⟨hfront', rfl⟩ := eq_append_of_splitOnce hcut
    have hpart : d ∉ ws ++ front' := fun h ↦
      (List.mem_append.mp h).elim (not_mem_of_spaces hd hws) hfront'
    have hsame : some (front, back) = some (ws ++ front', back' ++ ws') := by
      rw [← splitOnce_append hfront back, ← splitOnce_append hpart (back' ++ ws'), htext]
      simp only [List.append_assoc, List.cons_append]
    obtain ⟨rfl, rfl⟩ := Prod.mk.inj (Option.some.inj hsame)
    exact ⟨front', back', rfl, (trim_append_left hws front').symm,
      (trim_append_right hws' back').symm⟩

/-! ## Cutting everywhere -/

theorem splitOn_cons (d c : Char) (text : List Char) :
    (c :: text).splitOn d
      = if c = d then [] :: text.splitOn d else (text.splitOn d).modifyHead (c :: ·) := by
  rw [List.splitOn_eq_splitOnP, List.splitOnP_cons_eq_if_modifyHead, ← List.splitOn_eq_splitOnP]
  exact if_congr beq_iff_eq rfl rfl

theorem splitOn_ne_nil (d : Char) (text : List Char) : text.splitOn d ≠ [] := by
  rw [List.splitOn_eq_splitOnP]
  exact List.splitOnP_ne_nil _ text

/-- What is added behind a text belongs to its last part, unless it is a delimiter. -/
theorem splitOn_concat {c : Char} (hc : c ≠ d) (text : List Char) : ∃ parts last,
    text.splitOn d = parts ++ [last] ∧ (text ++ [c]).splitOn d = parts ++ [last ++ [c]] := by
  induction text with
  | nil =>
    refine ⟨[], [], rfl, ?_⟩
    rw [List.nil_append, splitOn_cons, if_neg hc]
    rfl
  | cons c' text ih =>
    obtain ⟨parts, last, hparts, hmore⟩ := ih
    rw [List.cons_append, splitOn_cons, splitOn_cons, hparts, hmore]
    split
    · exact ⟨[] :: parts, last, rfl, rfl⟩
    · cases parts with
      | nil => exact ⟨[], c' :: last, rfl, rfl⟩
      | cons part parts => exact ⟨(c' :: part) :: parts, last, rfl, rfl⟩

theorem split_eq_splitOn (d : Char) (text : List Char) : split d text = text.splitOn d := by
  induction text with
  | nil => rfl
  | cons c rest ih =>
    rw [split, ih, splitOn_cons]
    cases hrest : rest.splitOn d with
    | nil => exact absurd hrest (splitOn_ne_nil d rest)
    | cons part parts => rfl

theorem list_eq (d : Char) (text : List Char) :
    list d text = ((text.splitOn d).map trim).filter fun field ↦ !field.isEmpty := by
  rw [list, split_eq_splitOn]

theorem mem_list {field : List Char} :
    field ∈ list d text ↔ ∃ part ∈ text.splitOn d, ¬Spaces part ∧ trim part = field := by
  rw [list_eq, List.mem_filter, List.mem_map]
  constructor
  · rintro ⟨⟨part, hpart, rfl⟩, hne⟩
    refine ⟨part, hpart, fun hspaces ↦ ?_, rfl⟩
    rw [trim_eq_nil.mpr hspaces] at hne
    exact Bool.false_ne_true hne
  · rintro ⟨part, hpart, hspaces, rfl⟩
    refine ⟨⟨part, hpart, rfl⟩, ?_⟩
    rw [Bool.not_eq_true', List.isEmpty_eq_false_iff]
    exact mt trim_eq_nil.mp hspaces

/-- A text that is put together from parts is a list of those that are not white space alone. -/
theorem list_intercalate {parts : List (List Char)} (h : ∀ part ∈ parts, d ∉ part) :
    list d ([d].intercalate parts) = (parts.map trim).filter fun field ↦ !field.isEmpty := by
  cases parts with
  | nil => rfl
  | cons part parts => rw [list_eq, List.splitOn_intercalate d h (List.cons_ne_nil _ _)]

theorem list_cons {c : Char} (hd : isSpace d = false) (hc : isSpace c = true)
    (text : List Char) : list d (c :: text) = list d text := by
  have hne : c ≠ d := by
    rintro rfl
    exact Bool.false_ne_true (hd.symm.trans hc)
  rw [list_eq, list_eq, splitOn_cons, if_neg hne]
  cases text.splitOn d with
  | nil => rfl
  | cons part parts =>
    have hspace : Spaces [c] := fun _ h ↦ List.mem_singleton.mp h ▸ hc
    have htrim : trim (c :: part) = trim part := trim_append_left hspace part
    rw [List.modifyHead_cons, List.map_cons, List.map_cons, htrim]

theorem list_concat {c : Char} (hd : isSpace d = false) (hc : isSpace c = true)
    (text : List Char) : list d (text ++ [c]) = list d text := by
  have hne : c ≠ d := by
    rintro rfl
    exact Bool.false_ne_true (hd.symm.trans hc)
  obtain ⟨parts, last, hparts, hmore⟩ := splitOn_concat hne text
  rw [list_eq, list_eq, hparts, hmore, List.map_append, List.map_append, List.map_singleton,
    List.map_singleton, trim_concat hc]

theorem Padded.list_eq (h : Padded text padded) (hd : isSpace d = false) :
    list d padded = list d text := by
  obtain @⟨ws, ws', hws, hws'⟩ := h
  have hback : list d (text ++ ws') = list d text := by
    induction ws' using List.reverseRecOn with
    | nil => rw [List.append_nil]
    | append_singleton ws' c ih =>
      obtain ⟨hws', hc⟩ := List.forall_mem_append.mp hws'
      rw [← List.append_assoc, list_concat hd (hc c List.mem_cons_self), ih hws']
  induction ws with
  | nil => exact hback
  | cons c ws ih =>
    obtain ⟨hc, hws⟩ := List.forall_mem_cons.mp hws
    rw [List.cons_append, list_cons hd hc, ih hws]

theorem list_trim (hd : isSpace d = false) (text : List Char) :
    list d (trim text) = list d text := ((padded_trim text).list_eq hd).symm

end BookmarkGraph.Fields
