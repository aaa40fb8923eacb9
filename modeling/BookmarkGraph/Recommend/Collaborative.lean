import BookmarkGraph.Recommend.Catalog
import BookmarkGraph.Recommend.Strategy

/-!
# Collaborative filtering

Profiles that keep a bookmark in common are similar. A profile is recommended what similar profiles
keep, as far as it may see it and does not keep it itself.
-/

namespace BookmarkGraph

namespace Domain

def profileIds (g : Graph) : Except GraphError (List ElementId) :=
  ((Query.build g [.vertices, .step (.hasLabel [Label.profile])]).toIdList g).1

/-- The ids that the edges of a label lead to from the vertex of an id, once per edge. -/
def targetIds (g : Graph) (id : ElementId) (label : String) : Except GraphError (List ElementId) :=
  ((Query.build g [.ofIds [id], .step (.out [label])]).toIdList g).1

/-- The agencies that a profile belongs to. -/
def agenciesOf (g : Graph) (profile : ElementId) : Except GraphError (List ElementId) :=
  targetIds g profile Label.inAgency

end Domain

namespace Collaborative

open Domain

def name : String := "graph_cf"

/-- The ids of what a profile keeps, each one once. -/
def ownIds (g : Graph) (profile : ElementId) : Except GraphError (List ElementId) :=
  ((Query.build g
    [.ofIds [profile], .step (.out [Label.bookmarked]), .step .distinct]).toIdList g).1

/-- The ids of the profiles that keep a bookmark in common with a profile. -/
def similarIds (g : Graph) (profile : ElementId) : Except GraphError (List ElementId) :=
  ((Query.build g
    [.ofIds [profile], .step (.out [Label.bookmarked]), .step (.into [Label.bookmarked]),
      .step .distinct, .step (.excludeIds [profile])]).toIdList g).1

/-- What another profile keeps and the ids in `own` do not name. -/
def candidates (g : Graph) (own : List ElementId) (other : ElementId) :
    Except GraphError (List Element) :=
  ((Query.build g
    [.ofIds [other], .step (.out [Label.bookmarked]), .step .distinct,
      .step (.excludeIds own)]).toList g).1

/-- Scores one candidate with one vote, unless the profile may not see it. -/
def vote (g : Graph) (catalog : Catalog) (weighting : Weighting) (agencies : List ElementId)
    (table : ScoreTable) (candidate : Element) : Except GraphError ScoreTable :=
  match candidate.asVertex? with
  | none => return table
  | some listing => do
    if !catalog.visibleTo listing agencies then return table
    let v ← g.vertex listing
    return table.add v.id .one (weighting = .frequency)

/-- The scores of a profile: one vote from every similar profile for each of its listings. -/
def scoreProfile (g : Graph) (catalog : Catalog) (weighting : Weighting) (profile : ElementId) :
    Except GraphError ScoreTable := do
  let own ← ownIds g profile
  let agencies ← agenciesOf g profile
  let similar ← similarIds g profile
  similar.foldlM (fun table other ↦ do
    (← candidates g own other).foldlM (vote g catalog weighting agencies) table) .empty

def strategy (context : Context) : Strategy where
  name := name
  initiate := do
    let profiles ← profileIds context.graph
    let catalog ← Catalog.build context.graph context.config.respectVisibility
    let score := scoreProfile context.graph catalog context.config.weighting
    return fun tally ↦ (.ok (), tally.fill score profiles)

end Collaborative

end BookmarkGraph
