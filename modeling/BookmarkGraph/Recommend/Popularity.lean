import BookmarkGraph.Recommend.Collaborative

/-!
# Popularity

Every profile is recommended the listings that most profiles keep, as far as it may see them and
does not keep them itself.
-/

namespace BookmarkGraph

/-- A listing with the number of those that keep it. -/
structure PopularListing where
  /-- The vertex of the listing. -/
  index : VertexIndex
  /-- The id of the listing. -/
  id : ElementId
  /-- How many keep the listing, each of them counted once. -/
  score : Double
deriving DecidableEq, Repr

namespace Popularity

open Domain

def name : String := "popularity"

/-- How many keep a listing, each of them counted once. -/
def bookmarkCount (g : Graph) (listing : ElementId) : Except GraphError Nat :=
  ((Query.build g
    [.ofIds [listing], .step (.into [Label.bookmarked]), .step .distinct]).count g).1

/-- The listings that somebody keeps, those kept by most first; listings kept by as many stay in
the order of the catalog. -/
def popular (g : Graph) (catalog : Catalog) : Except GraphError (List PopularListing) := do
  let counted ← catalog.entries.mapM fun entry ↦ do
    return (entry, ← bookmarkCount g entry.id)
  let kept := counted.filter fun (_, count) ↦ 0 < count
  let listings := kept.map fun (entry, count) ↦
    (⟨entry.index, entry.id, .ofNat count⟩ : PopularListing)
  return listings.mergeSort fun a b ↦ b.score.rank ≤ a.score.rank

/-- Scores a popular listing if there is still room, the profile does not keep it and may see
it. -/
def offer (catalog : Catalog) (topN : Nat) (own agencies : List ElementId) (table : ScoreTable)
    (listing : PopularListing) : ScoreTable :=
  if topN ≤ table.size then table
  else if own.contains listing.id || !catalog.visibleTo listing.index agencies then table
  else table.add listing.id listing.score false

/-- The scores of a profile: the first popular listings that it may be offered. -/
def scoreProfile (g : Graph) (catalog : Catalog) (ranked : List PopularListing) (topN : Nat)
    (profile : ElementId) : Except GraphError ScoreTable := do
  let own ← targetIds g profile Label.bookmarked
  let agencies ← agenciesOf g profile
  return ranked.foldl (offer catalog topN own agencies) .empty

def strategy (context : Context) : Strategy where
  name := name
  initiate := do
    let profiles ← profileIds context.graph
    let catalog ← Catalog.build context.graph context.config.respectVisibility
    let ranked ← popular context.graph catalog
    let score := scoreProfile context.graph catalog ranked context.config.topN.toNat
    return fun tally ↦ (.ok (), tally.fill score profiles)

end Popularity

end BookmarkGraph
