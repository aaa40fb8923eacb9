import BookmarkGraph.Proofs.Number.TotalOrder
import BookmarkGraph.Proofs.Recommend.Batch
import BookmarkGraph.Proofs.Recommend.Ranking
import BookmarkGraph.Proofs.Table.Indexed

/-!
# Rankings after any awards

A score is added to the score that a listing has, or replaces it, and either way the listing keeps
its place among the listings. The score of a listing is therefore told by its own awards alone, from
the last one that replaces what was before, and ties are told by the first awards of the listings.

Scores need not be counts here. They can be any doubles, with NaNs, infinities and both zeros among
them. The total order tells all of them apart, so there is one arrangement of the listings, and what
is ranked is the front of it. The same holds where the scores are in a hash map apart from the order
of the listings: no listing is without its score.
-/

namespace BookmarkGraph

/-- A score that a listing is given. -/
structure Award where
  /-- The listing. -/
  listing : ElementId
  /-- The score. -/
  score : Double
  /-- Whether the score is added to what the listing has. -/
  accumulate : Bool

namespace Award

/-- What the award makes of the score that its listing has. -/
def change (a : Award) : Option Double → Double
  | none => a.score
  | some current => if a.accumulate then current.add a.score else a.score

theorem change_of_replaces {a : Award} (h : a.accumulate = false) (current : Option Double) :
    a.change current = a.score := by
  cases current with
  | none => rfl
  | some score => exact if_neg (Bool.eq_false_iff.mp h)

/-- The awards of a listing come to a score: where one replaces what was before, or is the first of
all, the later ones are added to it in their order. -/
def ComesTo (own : List Award) (score : Double) : Prop :=
  ∃ earlier start later, own = earlier ++ start :: later ∧
    (start.accumulate = false ∨ earlier = []) ∧ (∀ a ∈ later, a.accumulate = true) ∧
    score = later.foldl (fun current a ↦ current.add a.score) start.score

theorem foldl_accumulating {later : List Award} (h : ∀ a ∈ later, a.accumulate = true)
    (score : Double) :
    later.foldl (fun current a ↦ some (a.change current)) (some score)
      = some (later.foldl (fun current a ↦ current.add a.score) score) := by
  induction later generalizing score with
  | nil => rfl
  | cons a rest ih =>
    have hchange : a.change (some score) = score.add a.score := if_pos (h a List.mem_cons_self)
    rw [List.foldl_cons, hchange, ih fun b hb ↦ h b (List.mem_cons_of_mem a hb), List.foldl_cons]

/-- What awards come to is what they make of no score, one after the other. -/
theorem ComesTo.foldl_eq {own : List Award} {score : Double} (h : ComesTo own score) :
    own.foldl (fun current a ↦ some (a.change current)) none = some score := by
  obtain ⟨earlier, start, later, rfl, hstart, hlater, rfl⟩ := h
  have hchange : start.change (earlier.foldl (fun current a ↦ some (a.change current)) none)
      = start.score := by
    rcases hstart with hreplaces | rfl
    · exact change_of_replaces hreplaces _
    · rfl
  rw [List.foldl_append, List.foldl_cons, hchange, foldl_accumulating hlater]

theorem exists_comesTo {own : List Award} (h : own ≠ []) : ∃ score, ComesTo own score := by
  induction own using List.reverseRecOn with
  | nil => exact absurd rfl h
  | append_singleton own last ih =>
    by_cases hreplaces : last.accumulate = false ∨ own = []
    · exact ⟨last.score, own, last, [], rfl, hreplaces, nofun, rfl⟩
    · rw [not_or, Bool.not_eq_false] at hreplaces
      -- the last award is added to what the ones before it come to
      obtain ⟨score, earlier, start, later, heq, hstart, hlater, -⟩ := ih hreplaces.2
      refine ⟨_, earlier, start, later ++ [last], ?_, hstart, fun a ha ↦ ?_, rfl⟩
      · rw [heq, List.append_assoc, List.cons_append]
      · rcases List.mem_append.mp ha with ha | ha
        · exact hlater a ha
        · exact List.mem_singleton.mp ha ▸ hreplaces.1

theorem foldl_change_eq_some {own : List Award} {score : Double} :
    own.foldl (fun current a ↦ some (a.change current)) none = some score ↔ ComesTo own score := by
  refine ⟨fun h ↦ ?_, ComesTo.foldl_eq⟩
  have hne : own ≠ [] := by
    rintro rfl
    cases h
  obtain ⟨other, hother⟩ := exists_comesTo hne
  rw [hother.foldl_eq] at h
  exact Option.some.inj h ▸ hother

end Award

def ownAwards (awards : List Award) (listing : ElementId) : List Award :=
  awards.filter (·.listing = listing)

/-- The place of the first award of a listing. -/
def firstAward (awards : List Award) (listing : ElementId) : Nat :=
  (awards.map (·.listing)).idxOf listing

/-- The arrangement of all listings with an award: scores descend in the total order, and between
equal scores the first awards decide. -/
structure Arranges (awards : List Award) (order : List ScoredListing) : Prop where
  /-- Every listing with an award is there, with the score that its awards come to. -/
  mem_iff : ∀ entry, entry ∈ order ↔
    Award.ComesTo (ownAwards awards entry.listing) entry.score
  /-- No listing is there twice. -/
  nodup : (order.map (·.listing)).Nodup
  /-- Whatever stands ahead has the higher score, or the same score and the earlier first award. -/
  pairwise : order.Pairwise fun a b ↦ b.score.Below a.score ∨
    a.score = b.score ∧ firstAward awards a.listing < firstAward awards b.listing

theorem Arranges.ranks {awards : List Award} {order : List ScoredListing}
    (h : Arranges awards order) :
    Ranks (fun entry ↦ Award.ComesTo (ownAwards awards entry.listing) entry.score)
      (·.score.rank) (fun a b ↦ firstAward awards a.listing < firstAward awards b.listing)
      order where
  mem_iff := h.mem_iff
  nodup := h.nodup.of_map
  pairwise := h.pairwise.imp fun hab ↦
    hab.imp Double.rank_lt_rank.mpr (And.imp_left (congrArg Double.rank))

theorem Arranges.unique {awards : List Award} {order order' : List ScoredListing}
    (h : Arranges awards order) (h' : Arranges awards order') : order' = order :=
  Ranks.unique (fun _ _ ↦ Nat.lt_asymm) h.ranks h'.ranks

namespace ScoreTable

def award (t : ScoreTable) (a : Award) : ScoreTable := t.add a.listing a.score a.accumulate

def awarded (awards : List Award) : ScoreTable := awards.foldl award .empty

variable (awards : List Award)

theorem awarded_eq : awarded awards = Table.ofEvents Award.listing Award.change awards := rfl

theorem keys_awarded : (awarded awards).keys = (awards.map (·.listing)).eraseDups := by
  rw [awarded_eq, Table.keys_ofEvents]

theorem get?_awarded (listing : ElementId) (score : Double) :
    (awarded awards).get? listing = some score
      ↔ Award.ComesTo (ownAwards awards listing) score := by
  rw [awarded_eq, Table.get?_ofEvents, ← Award.foldl_change_eq_some]
  rfl

theorem mem_scored (t : ScoreTable) (entry : ScoredListing) :
    entry ∈ t.scored ↔ t.get? entry.listing = some entry.score := by
  rw [Table.get?_eq_some, scored, List.mem_map]
  constructor
  · rintro ⟨row, hrow, rfl⟩
    exact hrow
  · exact fun hrow ↦ ⟨_, hrow, rfl⟩

/-- The listings of the table are arranged once they are in order. -/
theorem arranges_of_perm {order : List ScoredListing}
    (hperm : order.Perm (awarded awards).scored)
    (hsorted : order.Pairwise fun a b ↦ b.score.Below a.score ∨
      a.score = b.score ∧ firstAward awards a.listing < firstAward awards b.listing) :
    Arranges awards order where
  mem_iff entry := by rw [← get?_awarded, ← mem_scored, hperm.mem_iff]
  nodup := by
    rw [(hperm.map _).nodup_iff, map_listing_scored]
    exact (awarded awards).nodup_keys
  pairwise := hsorted

theorem arranges_awarded :
    Arranges awards ((awarded awards).scored.mergeSort rankedBefore) := by
  have hnodup : (awarded awards).scored.Nodup := by
    have hkeys := (awarded awards).nodup_keys
    rw [← map_listing_scored] at hkeys
    exact hkeys.of_map
  -- the table has its listings in the order of their first awards
  have hfirst : (awarded awards).scored.Pairwise fun a b ↦
      firstAward awards a.listing < firstAward awards b.listing := by
    have hkeys := pairwise_eraseDups (awards.map (·.listing))
    rwa [← keys_awarded, ← map_listing_scored, List.pairwise_map] at hkeys
  have hranks := ranks_mergeSort hnodup hfirst (·.score.rank)
  exact arranges_of_perm awards (List.mergeSort_perm _ _) (hranks.pairwise.imp fun hab ↦
    hab.imp Double.rank_lt_rank.mp (And.imp_left Double.rank_injective))

/-! ## Scores apart from the order -/

/-- Gives a listing a score where the listings are in an array and their scores in a hash map. -/
def awardListed (s : Table.Listed ElementId Double) (a : Award) : Table.Listed ElementId Double :=
  s.update a.listing a.change

/-- The best listings. There is no result if a listing has no score. -/
def rankedListed? (s : Table.Listed ElementId Double) (topN : Nat) : Option (List ScoredListing) :=
  s.rows?.map fun rows ↦ ((rows.map fun row ↦ ⟨row.1, row.2⟩).mergeSort rankedBefore).take topN

theorem holds_awardListed : (awards.foldl awardListed .empty).Holds (awarded awards) := by
  induction awards using List.reverseRecOn with
  | nil => exact Table.Listed.holds_empty
  | append_singleton awards last ih =>
    rw [List.foldl_append, awarded, List.foldl_append]
    exact ih.update last.listing last.change

/-- **Tables rank exactly.** Whatever scores were given, and however they were mixed, there is one
arrangement of all listings with an award in which scores descend in the total order and listings of
equal scores keep the order of their first awards. What is ranked is the front of this arrangement.
It is as long as it may be, and no listing is there twice. Where the scores are in a hash map apart
from the order of the listings, every listing has its score, and the same is ranked. -/
theorem awarded_ranks_exactly :
    ∃ order, Arranges awards order ∧ (∀ order', Arranges awards order' → order' = order) ∧
      ∀ topN, (awarded awards).ranked topN = order.take topN ∧
        ((awarded awards).ranked topN).length
          = min topN (awards.map (·.listing)).eraseDups.length ∧
        (((awarded awards).ranked topN).map (·.listing)).Nodup ∧
        rankedListed? (awards.foldl awardListed .empty) topN = some (order.take topN) := by
  have harranges := arranges_awarded awards
  refine ⟨_, harranges, fun _ ↦ harranges.unique, fun topN ↦
    ⟨rfl, ?_, nodup_ranked _ topN, ?_⟩⟩
  · rw [ranked, List.length_take, List.length_mergeSort, ← keys_awarded, ← map_listing_scored,
      List.length_map]
  · rw [rankedListed?, (holds_awardListed awards).rows?_eq, Option.map_some]
    rfl

/-- Scores are added and replaced in turns, with infinities, NaNs of both signs and both zeros among
them. -/
def oddAwards : List Award :=
  [⟨.number 1, .one, true⟩, ⟨.number 2, .infinity true, true⟩, ⟨.number 3, .undefined, false⟩,
    ⟨.number 2, .zero true, false⟩, ⟨.number 4, .zero false, true⟩,
    ⟨.number 1, .infinity false, true⟩, ⟨.number 5, .infinity false, false⟩,
    ⟨.number 6, .infinity true, true⟩, ⟨.number 6, ⟨0x7FF8000000000000⟩, true⟩]

/-- What the awards come to, in the total order. -/
def oddOrder : List ScoredListing :=
  [⟨.number 6, ⟨0x7FF8000000000000⟩⟩, ⟨.number 1, .infinity false⟩, ⟨.number 5, .infinity false⟩,
    ⟨.number 4, .zero false⟩, ⟨.number 2, .zero true⟩, ⟨.number 3, .undefined⟩]

/-- Two infinities rank in the order of their first awards, the zeros are told apart, and the NaNs
are at both ends. -/
theorem awarded_ranks_exactly_odd :
    Arranges oddAwards oddOrder ∧ (awarded oddAwards).ranked 2 = oddOrder.take 2 ∧
      rankedListed? (oddAwards.foldl awardListed .empty) 2 = some (oddOrder.take 2) := by
  have hodd : Arranges oddAwards oddOrder :=
    arranges_of_perm oddAwards (by decide +kernel) (by decide +kernel)
  obtain ⟨order, -, honly, hranked⟩ := awarded_ranks_exactly oddAwards
  obtain rfl := honly oddOrder hodd
  obtain ⟨hfront, -, -, hlisted⟩ := hranked 2
  exact ⟨hodd, hfront, hlisted⟩

end ScoreTable

end BookmarkGraph
