import BookmarkGraph.Element.Id
import BookmarkGraph.Number.Double
import BookmarkGraph.Table

/-!
# Scores

A strategy collects scores in one table per profile. Tables and listings keep the order of first
use, which decides between equal scores when a table is ranked.

## Contents

* `ScoreTable`: listings with their scores, `ScoreTable.ranked` the best of them;
* `ProfileScores`: profiles with their tables.
-/

namespace BookmarkGraph

/-- A recommended listing with the score that a strategy gave it. -/
structure ScoredListing where
  /-- The listing. -/
  listing : ElementId
  /-- The score; higher ones rank first. -/
  score : Double
deriving DecidableEq, Repr

/-- The ranked listings of one profile. -/
structure RankedList where
  /-- The profile. -/
  profile : ElementId
  /-- The listings, the best one first. -/
  listings : List ScoredListing
deriving DecidableEq, Repr

/-- The scores of one profile, by listing. -/
abbrev ScoreTable := Table ElementId Double

namespace ScoreTable

/-- Scores a listing. If it has a score already, the new one is added to it when `accumulate` is
set and replaces it otherwise. -/
def add (t : ScoreTable) (listing : ElementId) (score : Double) (accumulate : Bool) : ScoreTable :=
  t.update listing fun
    | none => score
    | some current => if accumulate then current.add score else score

/-- All listings with their scores, in the order of first use. -/
def scored (t : ScoreTable) : List ScoredListing := t.rows.map fun row ↦ ⟨row.1, row.2⟩

/-- Whether the first listing may stand before the second one in a ranking. -/
def rankedBefore (a b : ScoredListing) : Bool := b.score.rank ≤ a.score.rank

/-- The best listings: scores descend in the total order of doubles, and listings of equal scores
keep the order of first use. -/
def ranked (t : ScoreTable) (topN : Nat) : List ScoredListing :=
  (t.scored.mergeSort rankedBefore).take topN

end ScoreTable

/-- The tables of profiles, in the order in which the profiles were first processed. -/
abbrev ProfileScores := Table ElementId ScoreTable

namespace ProfileScores

/-- Changes the table of a profile; a profile met for the first time starts with an empty one. -/
def entry (scores : ProfileScores) (profile : ElementId) (f : ScoreTable → ScoreTable) :
    ProfileScores :=
  scores.update profile fun table ↦ f (table.getD .empty)

/-- The best listings of every profile. -/
def ranked (scores : ProfileScores) (topN : Nat) : List RankedList :=
  scores.rows.map fun row ↦ ⟨row.1, ScoreTable.ranked row.2 topN⟩

end ProfileScores

end BookmarkGraph
