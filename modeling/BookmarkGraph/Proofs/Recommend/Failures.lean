import BookmarkGraph.Proofs.Recommend.Reruns

/-!
# What becomes of a profile that fails

A strategy may give up on a profile before it has scored it, afterwards, and more than once. A
failure counts and makes sure that the profile is processed; it leaves the scores alone. A failed
profile is therefore stored with an empty list exactly if it is never scored, and the summary counts
failures rather than profiles.

Strategies are given here by their moves, one score or one failure at a time. What a run of moves
leaves in the tally is what updates leave in a table: the tables are in the order in which the
profiles are first met, and failures can be struck out without a change in any table.
-/

namespace BookmarkGraph

/-! ## Moves -/

/-- One thing that a strategy does to the tally. -/
inductive Move where
  /-- Scores a listing for a profile. -/
  | score (profile listing : ElementId) (score : Double) (accumulate : Bool)
  /-- Gives up on a profile. -/
  | fail (profile : ElementId)
deriving DecidableEq, Repr

namespace Move

def profile : Move → ElementId
  | score profile .. => profile
  | fail profile => profile

def scored? : Move → Option ElementId
  | score profile .. => some profile
  | fail _ => none

def failed? : Move → Option ElementId
  | score .. => none
  | fail profile => some profile

def play (t : Tally) : Move → Tally
  | score profile listing x accumulate => t.add profile listing x accumulate
  | fail profile => t.fail profile

/-- What a move makes of the table of its profile. -/
def change : Move → ScoreTable → ScoreTable
  | score _ listing x accumulate => fun table ↦ table.add listing x accumulate
  | fail _ => id

/-- What a move does to the table of a profile. -/
def update (profile : ElementId) (table : ScoreTable) : Move → ScoreTable
  | score other listing x accumulate =>
    if other = profile then table.add listing x accumulate else table
  | fail _ => table

variable (moves : List Move)

/-- The profiles that are met, each one once and in the order in which they are met. -/
def profiles : List ElementId := (moves.map profile).eraseDups

def scored : List ElementId := moves.filterMap scored?

def failed : List ElementId := moves.filterMap failed?

/-- The scores of a profile. -/
def table (profile : ElementId) : ScoreTable := moves.foldl (update profile) .empty

/-- What moves make of a tally without scores. -/
def tally : Tally := moves.foldl play .empty

variable {moves}

theorem mem_failed {profile : ElementId} : profile ∈ failed moves ↔ fail profile ∈ moves := by
  rw [failed, List.mem_filterMap]
  constructor
  · rintro ⟨_ | other, hmem, heq⟩
    · exact nomatch heq
    · exact Option.some.inj heq ▸ hmem
  · exact fun h ↦ ⟨_, h, rfl⟩

theorem mem_scored {profile : ElementId} :
    profile ∈ scored moves ↔
      ∃ listing x accumulate, score profile listing x accumulate ∈ moves := by
  rw [scored, List.mem_filterMap]
  constructor
  · rintro ⟨⟨other, listing, x, accumulate⟩ | other, hmem, heq⟩
    · exact ⟨listing, x, accumulate, Option.some.inj heq ▸ hmem⟩
    · exact nomatch heq
  · rintro ⟨listing, x, accumulate, hmem⟩
    exact ⟨_, hmem, rfl⟩

theorem mem_profiles {profile : ElementId} :
    profile ∈ profiles moves ↔ ∃ move ∈ moves, move.profile = profile := by
  rw [profiles, List.mem_eraseDups, List.mem_map]

theorem failed_subset_profiles {profile : ElementId} (h : profile ∈ failed moves) :
    profile ∈ profiles moves :=
  mem_profiles.mpr ⟨_, mem_failed.mp h, rfl⟩

theorem scored_subset_profiles {profile : ElementId} (h : profile ∈ scored moves) :
    profile ∈ profiles moves := by
  obtain ⟨listing, x, accumulate, hmem⟩ := mem_scored.mp h
  exact mem_profiles.mpr ⟨_, hmem, rfl⟩

theorem nodup_profiles (moves : List Move) : (profiles moves).Nodup := nodup_eraseDups _

/-! ## The tally -/

theorem tally_append_singleton (moves : List Move) (move : Move) :
    tally (moves ++ [move]) = play (tally moves) move := by
  rw [tally, List.foldl_append]
  rfl

theorem table_append_singleton (moves : List Move) (move : Move) (profile : ElementId) :
    table (moves ++ [move]) profile = update profile (table moves profile) move := by
  rw [table, List.foldl_append]
  rfl

theorem scores_tally (moves : List Move) :
    (tally moves).scores
      = Table.ofEvents profile (fun move table ↦ move.change (table.getD .empty)) moves := by
  induction moves using List.reverseRecOn with
  | nil => rfl
  | append_singleton moves move ih =>
    rw [tally_append_singleton, Table.ofEvents_append_singleton, ← ih]
    cases move <;> rfl

theorem table_eq_foldl (moves : List Move) (p : ElementId) :
    table moves p
      = (moves.filter fun move ↦ move.profile == p).foldl (fun table move ↦ move.change table)
          .empty := by
  have hupdate : update p = fun table move ↦
      if move.profile == p then move.change table else table := by
    funext table move
    cases move with
    | score other listing x accumulate => simp only [update, profile, change, beq_iff_eq]
    | fail other => exact (ite_self table).symm
  rw [table, List.foldl_filter, hupdate]

theorem keys_tally (moves : List Move) : (tally moves).scores.keys = profiles moves := by
  rw [scores_tally, Table.keys_ofEvents, profiles]

theorem get?_tally (moves : List Move) (p : ElementId) :
    (tally moves).scores.get? p = if p ∈ profiles moves then some (table moves p) else none := by
  rw [scores_tally, Table.get?_ofEvents_getD profile change, table_eq_foldl, profiles]
  simp only [List.mem_eraseDups]

theorem failures_tally (moves : List Move) : (tally moves).failures = (failed moves).length := by
  induction moves using List.reverseRecOn with
  | nil => rfl
  | append_singleton moves move ih =>
    rw [tally_append_singleton, failed, List.filterMap_append, List.length_append, ← failed, ← ih]
    cases move <;> rfl

theorem isEmpty_table (moves : List Move) (profile : ElementId) :
    (table moves profile).isEmpty = true ↔ profile ∉ scored moves := by
  induction moves using List.reverseRecOn with
  | nil => simp [table, scored, Table.isEmpty, Table.empty]
  | append_singleton moves move ih =>
    rw [table_append_singleton, scored, List.filterMap_append, List.mem_append, ← scored, not_or,
      ← ih]
    cases move with
    | fail other => simp [update, scored?]
    | score other listing x accumulate =>
      by_cases h : other = profile
      · have hfilled : ((table moves profile).add listing x accumulate).isEmpty = false := by
          have hkey : listing ∈ ((table moves profile).add listing x accumulate).keys := by
            rw [ScoreTable.add, Table.keys_update]
            split
            · assumption
            · exact List.mem_append_right _ List.mem_cons_self
          rw [Table.isEmpty, List.isEmpty_eq_false_iff]
          rintro hrows
          rw [Table.keys, hrows] at hkey
          exact absurd hkey List.not_mem_nil
        simp [update, h, hfilled, scored?]
      · have h' : ¬profile = other := fun heq ↦ h heq.symm
        simp [update, h, h', scored?]

end Move

/-! ## Runs -/

theorem ScoreTable.ranked_eq_nil {t : ScoreTable} {topN : Nat} :
    t.ranked topN = [] ↔ topN = 0 ∨ t.isEmpty = true := by
  have hsorted : t.scored.mergeSort rankedBefore = [] ↔ t.rows = [] := by
    rw [← List.length_eq_zero_iff, List.length_mergeSort, scored, List.length_map,
      List.length_eq_zero_iff]
  rw [ranked, List.take_eq_nil_iff, hsorted, Table.isEmpty, List.isEmpty_iff]

theorem Sink.store_of_writeAll {sink : Sink} {ws : List Write} (h : (sink.writeAll ws).1 = .ok ()) :
    (sink.writeAll ws).2.store = ws.foldl Store.apply sink.store := by
  induction ws generalizing sink with
  | nil => rfl
  | cons w rest ih =>
    by_cases hrefused : sink.refuses = some sink.asked
    · rw [writeAll, write_refused hrefused] at h
      cases h
    · rw [writeAll, write_granted hrefused] at h ⊢
      exact ih h

/-- The strategy that makes the given moves. -/
def Strategy.ofMoves (name : String) (moves : List Move) : Strategy where
  name
  initiate := .ok fun tally ↦ (.ok (), moves.foldl Move.play tally)

namespace Session

/-- What a run of moves comes to, by profiles and in the summary. -/
structure Settles (moves : List Move) (topN : Nat) (summary : RunSummary) (store : Store) :
    Prop where
  /-- A profile that is met has the best of its scores, whether it fails or not. -/
  stored : ∀ profile ∈ Move.profiles moves,
    store.recommendationsFor profile = (Move.table moves profile).ranked topN
  /-- The list of a profile that fails is empty exactly if nothing is kept or the profile is never
  scored. -/
  failed_stored : ∀ profile ∈ Move.failed moves,
    store.recommendationsFor profile = [] ↔ topN = 0 ∨ profile ∉ Move.scored moves
  /-- Failures count as often as they happen. -/
  failedProfiles_eq : summary.failedProfiles = (Move.failed moves).length
  /-- Every profile that is met is counted once. -/
  profiles_eq : summary.profiles = (Move.profiles moves).length
  /-- A profile counts as a result if it is scored, whether it fails or not. -/
  profilesWithResults_eq : summary.profilesWithResults
    = if topN = 0 then 0 else (Move.scored moves).eraseDups.length
  /-- Failures and results are different profiles if no profile fails twice and none that fails is
  scored. -/
  disjoint : (Move.failed moves).Nodup →
    (∀ profile ∈ Move.failed moves, profile ∉ Move.scored moves) →
      summary.failedProfiles + summary.profilesWithResults ≤ summary.profiles

variable {moves : List Move} {t : Session}

theorem ranking?_of_moves (htally : t.tally = Move.tally moves) {profile : ElementId}
    (h : profile ∈ Move.profiles moves) :
    t.ranking? profile = some ((Move.table moves profile).ranked t.topN) := by
  rw [ranking?, htally, Move.get?_tally, if_pos h]
  rfl

/-- The lists that are not empty are those of the profiles that are scored. -/
theorem countP_ranked_of_moves (htally : t.tally = Move.tally moves) :
    (t.ranked.countP fun list ↦ !list.listings.isEmpty)
      = if t.topN = 0 then 0 else (Move.scored moves).eraseDups.length := by
  have hkeys : t.ranked.map (·.profile) = Move.profiles moves := by
    rw [map_profile_ranked, htally, Move.keys_tally]
  have hempty : ∀ list ∈ t.ranked,
      list.listings = [] ↔ t.topN = 0 ∨ list.profile ∉ Move.scored moves := by
    intro list hlist
    have hmet : list.profile ∈ Move.profiles moves := hkeys ▸ List.mem_map_of_mem hlist
    have hlistings :=
      ranking?_eq_some.mpr (show ⟨list.profile, list.listings⟩ ∈ t.ranked from hlist)
    rw [ranking?_of_moves htally hmet] at hlistings
    rw [← Option.some.inj hlistings, ScoreTable.ranked_eq_nil, Move.isEmpty_table]
  have hcount : (t.ranked.countP fun list ↦ !list.listings.isEmpty)
      = (Move.profiles moves).countP fun profile ↦ t.topN ≠ 0 ∧ profile ∈ Move.scored moves := by
    rw [← hkeys, List.countP_map]
    refine List.countP_congr fun list hlist ↦ ?_
    have h := hempty list hlist
    simp only [Function.comp_apply, decide_eq_true_eq, Bool.not_eq_true', List.isEmpty_eq_false_iff,
      ne_eq, h, not_or, not_not]
  rw [hcount, List.countP_eq_length_filter]
  by_cases htopN : t.topN = 0
  · simp [htopN]
  · -- both lists have the profiles that are scored, each one once
    rw [if_neg htopN]
    refine List.Perm.length_eq ((List.perm_ext_iff_of_nodup
      ((Move.nodup_profiles moves).filter _) (nodup_eraseDups _)).mpr fun profile ↦ ?_)
    rw [List.mem_filter, List.mem_eraseDups, decide_eq_true_eq]
    exact ⟨fun h ↦ h.2.2, fun h ↦ ⟨Move.scored_subset_profiles h, htopN, h⟩⟩

theorem failed_add_scored_le (hnodup : (Move.failed moves).Nodup)
    (hdisjoint : ∀ profile ∈ Move.failed moves, profile ∉ Move.scored moves) :
    (Move.failed moves).length + (Move.scored moves).eraseDups.length
      ≤ (Move.profiles moves).length := by
  have happend : (Move.failed moves ++ (Move.scored moves).eraseDups).Nodup := by
    refine List.nodup_append.mpr ⟨hnodup, nodup_eraseDups _, fun p hp q hq ↦ ?_⟩
    rintro rfl
    exact hdisjoint p hp (List.mem_eraseDups.mp hq)
  have hsubset : Move.failed moves ++ (Move.scored moves).eraseDups ⊆ Move.profiles moves := by
    intro profile hprofile
    rcases List.mem_append.mp hprofile with h | h
    · exact Move.failed_subset_profiles h
    · exact Move.scored_subset_profiles (List.mem_eraseDups.mp h)
  rw [← List.length_append]
  exact (List.subperm_of_subset happend hsubset).length_le

/-- **Failures leave scores alone.** Take a strategy that scores and fails in any order, and a run
of it that succeeds. A profile that fails has an empty list in the store exactly if it is never
scored or no listings are kept at all; otherwise it has the best of its scores. The summary counts
every single failure, and it counts failed profiles among the results if they are scored. -/
theorem recommend_settles {s t : Session} {name : String} {moves : List Move} {sink sink' : Sink}
    {summary : RunSummary} (hs : s.strategy = .ofMoves name moves)
    (h : s.recommend sink = (.ok summary, t, sink')) :
    Settles moves s.topN summary sink'.store := by
  have hinitiate : s.strategy.initiate
      = .ok fun tally ↦ (.ok (), moves.foldl Move.play tally) := by
    rw [hs]
    rfl
  rw [recommend_of_scoring hinitiate rfl] at h
  obtain ⟨hsummary, ht, hsink⟩ := Prod.mk.inj h |>.imp_right Prod.mk.inj
  obtain ⟨⟨⟩, hgranted, rfl⟩ := map_eq_ok.mp hsummary
  rw [ht] at hsink hgranted ⊢
  have htally : t.tally = Move.tally moves := ht ▸ rfl
  have htopN : t.topN = s.topN := ht ▸ rfl
  have hcounts := t.counts_summary
  have hprofiles : t.ranked.map (·.profile) = Move.profiles moves := by
    rw [map_profile_ranked, htally, Move.keys_tally]
  have hfailures : t.summary.failedProfiles = (Move.failed moves).length := by
    rw [failedProfiles_summary, htally, Move.failures_tally]
  have hmet : t.summary.profiles = (Move.profiles moves).length := by
    rw [hcounts.profiles_eq, ← hprofiles, List.length_map]
  have hresults : t.summary.profilesWithResults
      = if s.topN = 0 then 0 else (Move.scored moves).eraseDups.length := by
    rw [hcounts.profilesWithResults_eq, countP_ranked_of_moves htally, htopN]
  have hstored : ∀ profile ∈ Move.profiles moves,
      sink'.store.recommendationsFor profile = (Move.table moves profile).ranked s.topN := by
    intro profile hprofile
    rw [← hsink, Sink.store_of_writeAll hgranted, recommendationsFor_writes,
      ranking?_of_moves htally hprofile, Option.getD_some, htopN]
  refine ⟨hstored, fun profile hprofile ↦ ?_, hfailures, hmet, hresults, fun hnodup hdisjoint ↦ ?_⟩
  · rw [hstored profile (Move.failed_subset_profiles hprofile), ScoreTable.ranked_eq_nil,
      Move.isEmpty_table]
  · have hle := failed_add_scored_le hnodup hdisjoint
    rw [hfailures, hmet, hresults]
    split <;> omega

theorem recommend_settles_mixed :
    let moves : List Move := [.fail (.name "a"), .score (.name "b") (.name "x") .one true,
      .fail (.name "b"), .score (.name "c") (.name "x") .one false]
    let s := start (.ofMoves "mixed" moves) {}
    ∃ summary t sink, s.recommend (.ofStore .empty (some 9)) = (.ok summary, t, sink) ∧
      Settles moves 10 summary sink.store ∧
      sink.store.recommendationsFor (.name "a") = [] ∧
      sink.store.recommendationsFor (.name "b") ≠ [] := by
  intro moves s
  have hanswer : ∃ summary, (s.recommend (.ofStore .empty (some 9))).1 = .ok summary :=
    ⟨⟨"mixed", 3, 2, 2, 2⟩, by decide +kernel⟩
  obtain ⟨summary, hsummary⟩ := hanswer
  have hrun : s.recommend (.ofStore .empty (some 9))
      = (.ok summary, (s.recommend (.ofStore .empty (some 9))).2) := Prod.ext hsummary rfl
  have hsettles : Settles moves 10 summary _ := recommend_settles (s := s) rfl hrun
  refine ⟨summary, _, _, hrun, hsettles, ?_, ?_⟩
  · rw [hsettles.failed_stored _ (by decide)]
    decide
  · rw [ne_eq, hsettles.failed_stored _ (by decide)]
    decide

/-- A profile that is scored and then fails twice keeps its list, counts as two failures and as a
result, and is still only one profile. -/
theorem failed_profile_listed :
    let p : ElementId := .name "p-1"
    let moves : List Move := [.score p (.name "l-1") .one true, .fail p, .fail p]
    let s := start (.ofMoves "flaky" moves) {}
    ∃ summary t sink, s.recommend (.ofStore .empty none) = (.ok summary, t, sink) ∧
      Move.fail p ∈ moves ∧ sink.store.recommendationsFor p = [⟨.name "l-1", .one⟩] ∧
      summary.failedProfiles = 2 ∧ (Move.failed moves).eraseDups.length = 1 ∧
      ¬summary.failedProfiles + summary.profilesWithResults ≤ summary.profiles := by
  intro p moves s
  have hanswer : (s.recommend (.ofStore .empty none)).1 = .ok ⟨"flaky", 1, 1, 1, 2⟩ := by
    decide +kernel
  have hstored : (s.recommend (.ofStore .empty none)).2.2.store.recommendationsFor p
      = [⟨.name "l-1", .one⟩] := by decide +kernel
  exact ⟨_, _, _, Prod.ext hanswer rfl, by decide, hstored, rfl, by decide, by decide⟩

end Session

end BookmarkGraph
