import BookmarkGraph.Proofs.Number.Whole
import BookmarkGraph.Proofs.Recommend.Offers
import BookmarkGraph.Proofs.Recommend.Stored
import BookmarkGraph.Proofs.Repetitions
import Mathlib.Data.List.Pairwise

/-!
# Rankings

What a score table ranks is decided by three things: which listings have a score, how high it is,
and in which order they were first used. `Ranks` says that a list is the candidates by descending
scores with another order between equal ones, and leaves no choice, as `Ranks.unique` shows.

Sorting is stable, so a list without repetitions that is sorted by score keeps its order between
equal scores; this is `ranks_mergeSort`, and everything about ties rests on it. The scores of both
strategies are counts. They are kept as doubles, which rank like the counts as long as these stay
below `2⁵³`.
-/

namespace BookmarkGraph

variable {α β : Type}

/-! ## Rankings -/

/-- The candidates by descending scores; between equal scores another order decides. -/
structure Ranks (candidate : α → Prop) (score : α → Nat) (before : α → α → Prop)
    (order : List α) : Prop where
  /-- Every candidate is ranked, and nothing else. -/
  mem_iff : ∀ x, x ∈ order ↔ candidate x
  /-- Nothing is ranked twice. -/
  nodup : order.Nodup
  /-- Whatever stands ahead has the higher score, or the same score and comes before. -/
  pairwise : order.Pairwise fun a b ↦ score b < score a ∨ score a = score b ∧ before a b

theorem Ranks.unique {candidate : α → Prop} {score : α → Nat} {before : α → α → Prop}
    {order order' : List α} (hasymm : ∀ a b, before a b → ¬before b a)
    (h : Ranks candidate score before order) (h' : Ranks candidate score before order') :
    order' = order := by
  have hperm : order'.Perm order := by
    rw [List.perm_ext_iff_of_nodup h'.nodup h.nodup]
    intro x
    rw [h.mem_iff, h'.mem_iff]
  refine List.Perm.eq_of_pairwise (fun a b _ _ hab hba ↦ ?_) h'.pairwise h.pairwise hperm
  rcases hab with hlt | ⟨heq, hab⟩
  · omega
  · rcases hba with hlt | ⟨-, hba⟩
    · omega
    · exact absurd hba (hasymm a b hab)

theorem Ranks.filter {candidate : α → Prop} {score : α → Nat} {before : α → α → Prop}
    {order : List α} (h : Ranks candidate score before order) (p : α → Bool) :
    Ranks (fun x ↦ candidate x ∧ p x = true) score before (order.filter p) where
  mem_iff x := by rw [List.mem_filter, h.mem_iff]
  nodup := h.nodup.filter p
  pairwise := h.pairwise.filter p

/-! ## The order of first use -/

section FirstUse

variable [BEq α] [LawfulBEq α]

theorem pairwise_eraseDups (xs : List α) :
    xs.eraseDups.Pairwise fun a b ↦ xs.idxOf a < xs.idxOf b := by
  induction xs using List.reverseRecOn with
  | nil => exact List.Pairwise.nil
  | append_singleton xs x ih =>
    have hold : ∀ a ∈ xs.eraseDups, (xs ++ [x]).idxOf a = xs.idxOf a := fun a ha ↦
      List.idxOf_append_of_mem (List.mem_eraseDups.mp ha)
    have hinit : xs.eraseDups.Pairwise fun a b ↦ (xs ++ [x]).idxOf a < (xs ++ [x]).idxOf b :=
      ih.imp_of_mem fun {a b} ha hb hlt ↦ by rwa [hold a ha, hold b hb]
    rw [eraseDups_append_singleton]
    split
    · exact hinit
    · rename_i hnew
      refine List.pairwise_append.mpr ⟨hinit, List.pairwise_singleton _ _, fun a ha b hb ↦ ?_⟩
      obtain rfl := List.mem_singleton.mp hb
      rw [hold a ha, List.idxOf_append_of_notMem hnew]
      exact Nat.lt_add_right _ (List.idxOf_lt_length_of_mem (List.mem_eraseDups.mp ha))

theorem eraseDups_of_nodup {xs : List α} (h : xs.Nodup) : xs.eraseDups = xs := by
  induction xs using List.reverseRecOn with
  | nil => rfl
  | append_singleton xs x ih =>
    obtain ⟨hinit, -, hnew⟩ := List.nodup_append.mp h
    rw [eraseDups_append_singleton, if_neg fun hx ↦ hnew x hx x List.mem_cons_self rfl, ih hinit]

end FirstUse

section Walks

variable [BEq β]

/-- Going through the lists of `xs`, `a` is met before `b`: the first list that has one of them has
`a`, and if it has `b` as well then `a` has the earlier place in it. -/
def MetBefore (f : α → List β) (xs : List α) (a b : β) : Prop :=
  ∃ earlier x later, xs = earlier ++ x :: later ∧ (∀ y ∈ earlier, a ∉ f y ∧ b ∉ f y) ∧
    a ∈ f x ∧ (b ∈ f x → (f x).idxOf a < (f x).idxOf b)

theorem MetBefore.cons {f : α → List β} {xs : List α} {a b : β} (h : MetBefore f xs a b) {x : α}
    (ha : a ∉ f x) (hb : b ∉ f x) : MetBefore f (x :: xs) a b := by
  obtain ⟨earlier, y, later, rfl, hearlier, hy⟩ := h
  refine ⟨x :: earlier, y, later, rfl, fun z hz ↦ ?_, hy⟩
  rcases List.mem_cons.mp hz with rfl | hz
  · exact ⟨ha, hb⟩
  · exact hearlier z hz

theorem MetBefore.asymm {f : α → List β} {xs : List α} {a b : β} (h : MetBefore f xs a b) :
    ¬MetBefore f xs b a := by
  obtain ⟨earlier, x, later, rfl, hearlier, ha, hab⟩ := h
  rintro ⟨earlier', x', later', heq, hearlier', hb, hba⟩
  -- the list that decides is the same for both
  rcases List.append_eq_append_iff.mp heq with ⟨gap, hgap, htail⟩ | ⟨gap, hgap, htail⟩
  · rcases gap with - | ⟨y, gap⟩
    · obtain ⟨rfl, -⟩ := List.cons_eq_cons.mp htail
      exact absurd (hab hb) (Nat.lt_asymm (hba ha))
    · obtain ⟨rfl, -⟩ := List.cons_eq_cons.mp htail
      exact (hearlier' x (hgap ▸ List.mem_append_right _ List.mem_cons_self)).2 ha
  · rcases gap with - | ⟨y, gap⟩
    · obtain ⟨rfl, -⟩ := List.cons_eq_cons.mp htail
      exact absurd (hab hb) (Nat.lt_asymm (hba ha))
    · obtain ⟨rfl, -⟩ := List.cons_eq_cons.mp htail
      exact (hearlier x' (hgap ▸ List.mem_append_right _ List.mem_cons_self)).2 hb

theorem pairwise_metBefore [LawfulBEq β] (f : α → List β) (xs : List α) :
    (xs.flatMap f).eraseDups.Pairwise (MetBefore f xs) := by
  induction xs with
  | nil => exact List.Pairwise.nil
  | cons x xs ih =>
    have hrest : ((xs.flatMap f).removeAll (f x)).eraseDups.Pairwise (MetBefore f (x :: xs)) := by
      rw [List.removeAll, eraseDups_filter]
      refine (ih.filter _).imp_of_mem fun {a b} ha hb h ↦ ?_
      have hnew : ∀ c, c ∈ ((xs.flatMap f).eraseDups.filter fun c ↦ !(f x).elem c) → c ∉ f x := by
        intro c hc
        simpa using (List.mem_filter.mp hc).2
      exact h.cons (hnew a ha) (hnew b hb)
    rw [List.flatMap_cons, List.eraseDups_append, List.pairwise_append]
    refine ⟨?_, hrest, fun a ha b hb ↦ ?_⟩
    · refine (pairwise_eraseDups (f x)).imp_of_mem fun {a b} ha _ hlt ↦ ?_
      exact ⟨[], x, xs, rfl, fun y hy ↦ absurd hy List.not_mem_nil, List.mem_eraseDups.mp ha,
        fun _ ↦ hlt⟩
    · have hb : b ∉ f x := by
        have hmem := (List.mem_filter.mp (List.mem_eraseDups.mp hb)).2
        simpa using hmem
      exact ⟨[], x, xs, rfl, fun y hy ↦ absurd hy List.not_mem_nil, List.mem_eraseDups.mp ha,
        fun h ↦ absurd h hb⟩

end Walks

/-! ## Sorting -/

theorem sublist_or_swap {xs : List α} {a b : α} (ha : a ∈ xs) (hb : b ∈ xs) (hne : a ≠ b) :
    [a, b].Sublist xs ∨ [b, a].Sublist xs := by
  have hsymm : Std.Symm fun c d ↦ [c, d].Sublist xs ∨ [d, c].Sublist xs := ⟨fun _ _ ↦ Or.symm⟩
  have heither : xs.Pairwise fun c d ↦ [c, d].Sublist xs ∨ [d, c].Sublist xs :=
    List.pairwise_of_forall_sublist .inl
  exact heither.forall ha hb hne

theorem not_sublist_swap [BEq α] [LawfulBEq α] {xs : List α} {a b : α} (hnodup : xs.Nodup)
    (h : [a, b].Sublist xs) : ¬[b, a].Sublist xs := by
  intro hswap
  have hplaces := eraseDups_of_nodup hnodup ▸ pairwise_eraseDups xs
  exact Nat.lt_asymm (List.pairwise_iff_forall_sublist.mp hplaces h)
    (List.pairwise_iff_forall_sublist.mp hplaces hswap)

/-- Sorting by score ranks, the order of the list deciding between equal scores. -/
theorem ranks_mergeSort [BEq α] [LawfulBEq α] {xs : List α} {before : α → α → Prop}
    (hnodup : xs.Nodup) (hbefore : xs.Pairwise before) (score : α → Nat) :
    Ranks (· ∈ xs) score before (xs.mergeSort fun a b ↦ score b ≤ score a) := by
  have htrans : ∀ a b c : α, decide (score b ≤ score a) = true → decide (score c ≤ score b) = true →
      decide (score c ≤ score a) = true := by
    simp only [decide_eq_true_eq]
    omega
  have htotal : ∀ a b : α, (decide (score b ≤ score a) || decide (score a ≤ score b)) = true := by
    intro a b
    rw [Bool.or_eq_true, decide_eq_true_eq, decide_eq_true_eq]
    exact Nat.le_total _ _
  have hperm := List.mergeSort_perm xs fun a b ↦ decide (score b ≤ score a)
  have hsorted := hperm.nodup_iff.mpr hnodup
  refine ⟨fun x ↦ List.mem_mergeSort, hsorted, List.pairwise_of_forall_sublist fun {a b} hab ↦ ?_⟩
  have hdescends : score b ≤ score a :=
    of_decide_eq_true (List.pairwise_iff_forall_sublist.mp
      (List.pairwise_mergeSort htrans htotal xs) hab)
  rcases Nat.lt_or_eq_of_le hdescends with hlt | heq
  · exact .inl hlt
  · refine .inr ⟨heq.symm, ?_⟩
    have ha : a ∈ xs := hperm.mem_iff.mp (hab.subset List.mem_cons_self)
    have hb : b ∈ xs := hperm.mem_iff.mp (hab.subset (List.mem_cons_of_mem a List.mem_cons_self))
    have hne : a ≠ b := List.pairwise_iff_forall_sublist.mp hsorted hab
    -- were they the other way round in the list, stability would keep them so
    rcases sublist_or_swap ha hb hne with h | h
    · exact List.pairwise_iff_forall_sublist.mp hbefore h
    · exact absurd (List.pair_sublist_mergeSort htrans htotal (decide_eq_true heq.ge) h)
        (not_sublist_swap hsorted hab)

/-! ## Tables of scores -/

namespace ScoreTable

theorem ranked_of_rows {t : ScoreTable} {xs : List α} {name : α → ElementId} {score : α → Nat}
    (h : t.rows = xs.map fun x ↦ (name x, .ofNat (score x))) (hscore : ∀ x ∈ xs, score x < 2 ^ 53)
    (topN : Nat) :
    t.ranked topN = ((xs.mergeSort fun a b ↦ score b ≤ score a).take topN).map fun x ↦
      ⟨name x, .ofNat (score x)⟩ := by
  have hscored : t.scored = xs.map fun x ↦ (⟨name x, .ofNat (score x)⟩ : ScoredListing) := by
    rw [scored, h, List.map_map]
    rfl
  rw [ranked, hscored, List.map_take, List.map_mergeSort]
  intro a ha b hb
  exact decide_eq_decide.mpr (Double.rank_ofNat_le (hscore b hb) (hscore a ha)).symm

/-- The table after votes of weight one. -/
def ofVotes (accumulate : Bool) (votes : List ElementId) : ScoreTable :=
  votes.foldl (fun table listing ↦ table.add listing .one accumulate) .empty

theorem ofVotes_append_singleton (accumulate : Bool) (votes : List ElementId) (vote : ElementId) :
    ofVotes accumulate (votes ++ [vote]) = (ofVotes accumulate votes).add vote .one accumulate := by
  rw [ofVotes, List.foldl_append]
  rfl

theorem keys_ofVotes (accumulate : Bool) (votes : List ElementId) :
    (ofVotes accumulate votes).keys = votes.eraseDups :=
  (Table.keys_ofEvents id _ votes).trans (congrArg List.eraseDups votes.map_id)

/-- A listing has as many ones as it has votes if votes accumulate, and a single one otherwise. -/
theorem get?_ofVotes (accumulate : Bool) {votes : List ElementId}
    (h : ∀ listing, votes.count listing < 2 ^ 53) (listing : ElementId) :
    (ofVotes accumulate votes).get? listing
      = if listing ∈ votes then
          some (.ofNat (if accumulate then votes.count listing else 1))
        else none := by
  induction votes using List.reverseRecOn with
  | nil => rfl
  | append_singleton votes vote ih =>
    have hinit : ∀ other, votes.count other < 2 ^ 53 := fun other ↦
      Nat.lt_of_le_of_lt ((List.sublist_append_left votes [vote]).count_le other) (h other)
    have hold := ih hinit
    rw [ofVotes_append_singleton, add, Table.get?_update, List.count_append]
    by_cases hlisting : listing = vote
    · obtain rfl := hlisting
      have hlast : listing ∈ votes ++ [listing] := List.mem_append_right _ List.mem_cons_self
      rw [if_pos (beq_self_eq_true listing), if_pos hlast, List.count_singleton_self, hold]
      refine congrArg some ?_
      by_cases hmem : listing ∈ votes
      · rw [if_pos hmem]
        cases accumulate with
        | false => simp only [Bool.false_eq_true, if_false, Double.one]
        | true =>
          simp only [if_true, Double.one]
          rw [Double.ofNat_add_ofNat (hinit listing) (by decide) (Nat.succ_pos _)]
      · -- the first vote counts the same either way
        rw [if_neg hmem, List.count_eq_zero_of_not_mem hmem]
        cases accumulate <;> simp only [Double.one, if_true, Bool.false_eq_true, if_false]
    · have hcount : [vote].count listing = 0 :=
        List.count_eq_zero_of_not_mem fun hmem ↦ hlisting (List.mem_singleton.mp hmem)
      have hmem : listing ∈ votes ++ [vote] ↔ listing ∈ votes := by simp [hlisting]
      rw [if_neg (by simpa using hlisting), hold, hcount, Nat.add_zero]
      simp only [hmem]

theorem rows_ofVotes (accumulate : Bool) {votes : List ElementId}
    (h : ∀ listing, votes.count listing < 2 ^ 53) :
    (ofVotes accumulate votes).rows = votes.eraseDups.map fun listing ↦
      (listing, .ofNat (if accumulate then votes.count listing else 1)) := by
  rw [← keys_ofVotes accumulate]
  refine Table.rows_eq_map fun listing hlisting ↦ ?_
  rw [keys_ofVotes, List.mem_eraseDups] at hlisting
  rw [get?_ofVotes accumulate h, if_pos hlisting]

/-- The table after a scan of scored listings that passes over some of them and stops adding once
it has the given number. -/
def ofScan (skipped : ScoredListing → Bool) (topN : Nat) (entries : List ScoredListing) :
    ScoreTable :=
  entries.foldl (fun table entry ↦
    if topN ≤ table.size then table
    else if skipped entry then table
    else table.add entry.listing entry.score false) .empty

theorem ofScan_append_singleton (skipped : ScoredListing → Bool) (topN : Nat)
    (entries : List ScoredListing) (entry : ScoredListing) :
    ofScan skipped topN (entries ++ [entry])
      = if topN ≤ (ofScan skipped topN entries).size then ofScan skipped topN entries
        else if skipped entry then ofScan skipped topN entries
        else (ofScan skipped topN entries).add entry.listing entry.score false := by
  rw [ofScan, List.foldl_append]
  rfl

theorem keys_ofScan_subset (skipped : ScoredListing → Bool) (topN : Nat)
    {entries : List ScoredListing} {listing : ElementId}
    (h : listing ∈ (ofScan skipped topN entries).keys) : listing ∈ entries.map (·.listing) := by
  induction entries using List.reverseRecOn with
  | nil => exact h
  | append_singleton entries entry ih =>
    rw [List.map_append, List.mem_append]
    rw [ofScan_append_singleton] at h
    split at h
    · exact .inl (ih h)
    · split at h
      · exact .inl (ih h)
      · rcases mem_keys_add h with hold | rfl
        · exact .inl (ih hold)
        · exact .inr List.mem_cons_self

/-- A scan that stops early has the first of what it would have without a limit. -/
theorem rows_ofScan (skipped : ScoredListing → Bool) (topN : Nat) {entries : List ScoredListing}
    (hnodup : (entries.map (·.listing)).Nodup) :
    (ofScan skipped topN entries).rows
      = ((entries.filter fun entry ↦ !skipped entry).take topN).map fun entry ↦
        (entry.listing, entry.score) := by
  induction entries using List.reverseRecOn with
  | nil => rw [List.filter_nil, List.take_nil]; rfl
  | append_singleton entries entry ih =>
    rw [List.map_append, List.map_singleton] at hnodup
    obtain ⟨hinit, -, hnew⟩ := List.nodup_append.mp hnodup
    have hrows := ih hinit
    have hsize : (ofScan skipped topN entries).size
        = min topN (entries.filter fun entry ↦ !skipped entry).length := by
      rw [Table.size, hrows, List.length_map, List.length_take]
    rw [ofScan_append_singleton, List.filter_append]
    by_cases hfull : topN ≤ (entries.filter fun entry ↦ !skipped entry).length
    · rw [if_pos (hsize ▸ Nat.le_min.mpr ⟨Nat.le_refl _, hfull⟩), hrows,
        List.take_append_of_le_length hfull]
    · rw [if_neg (by omega)]
      rw [Nat.not_le] at hfull
      have hall : (entries.filter fun entry ↦ !skipped entry).take topN
          = entries.filter fun entry ↦ !skipped entry := List.take_of_length_le hfull.le
      by_cases hskipped : skipped entry = true
      · rw [if_pos hskipped, hrows, List.filter_cons_of_neg (by simp [hskipped]), List.filter_nil,
          List.append_nil]
      · have hfresh : entry.listing ∉ (ofScan skipped topN entries).keys := fun hmem ↦
          hnew _ (keys_ofScan_subset skipped topN hmem) _ List.mem_cons_self rfl
        rw [if_neg hskipped, add, Table.rows_update_of_not_mem hfresh, hrows, hall,
          List.filter_cons_of_pos (by simp [hskipped]), List.filter_nil,
          List.take_of_length_le (by rw [List.length_append]; exact hfull), List.map_append]
        rfl

theorem rankedBefore_trans (a b c : ScoredListing) (hab : rankedBefore a b = true)
    (hbc : rankedBefore b c = true) : rankedBefore a c = true :=
  decide_eq_true ((of_decide_eq_true hbc).trans (of_decide_eq_true hab))

theorem rankedBefore_total (a b : ScoredListing) :
    (rankedBefore a b || rankedBefore b a) = true := by
  rw [Bool.or_eq_true, rankedBefore, rankedBefore, decide_eq_true_eq, decide_eq_true_eq]
  exact Nat.le_total _ _

theorem ranked_take (t : ScoreTable) {n m : Nat} (h : n ≤ m) :
    t.ranked n = (t.ranked m).take n := by
  rw [ranked, ranked, List.take_take, Nat.min_eq_left h]

/-- What is scanned in the order of scores is ranked as it is scanned, because a part of a sorted
list is sorted. -/
theorem ranked_ofScan (skipped : ScoredListing → Bool) (topN : Nat) {entries : List ScoredListing}
    (hnodup : (entries.map (·.listing)).Nodup)
    (hsorted : entries.Pairwise fun a b ↦ rankedBefore a b = true) :
    (ofScan skipped topN entries).ranked topN
      = (entries.filter fun entry ↦ !skipped entry).take topN := by
  have hscored : (ofScan skipped topN entries).scored
      = (entries.filter fun entry ↦ !skipped entry).take topN := by
    rw [scored, rows_ofScan skipped topN hnodup, List.map_map]
    exact List.map_id _
  have hpart : ((entries.filter fun entry ↦ !skipped entry).take topN).Pairwise
      fun a b ↦ rankedBefore a b = true :=
    hsorted.sublist ((List.take_sublist _ _).trans List.filter_sublist)
  rw [ranked, hscored, List.mergeSort_of_pairwise hpart, List.take_take, Nat.min_self]

end ScoreTable

end BookmarkGraph
