import BookmarkGraph.Domain.Build
import BookmarkGraph.Query

/-!
# The catalog of listings

A catalog gathers once per run what decides who may see a listing: its flags and the agencies that
own it. A listing is shown when it may be recommended at all and, if it is private, to the profiles
that share an agency with it.
-/

namespace BookmarkGraph

/-- What a catalog knows about a listing. -/
structure CatalogEntry where
  /-- The vertex of the listing. -/
  index : VertexIndex
  /-- The id of the listing. -/
  id : ElementId
  /-- Whether the listing is enabled, not deleted and approved. -/
  recommendable : Bool
  /-- Whether only profiles of the owning agencies see the listing. -/
  isPrivate : Bool
  /-- The agencies that own the listing. -/
  agencies : List ElementId
deriving DecidableEq, Repr

/-- The listings of a graph, in the order of insertion. -/
structure Catalog where
  /-- One entry for every listing. -/
  entries : List CatalogEntry
  /-- Whether the flags of listings are respected; otherwise every profile sees every listing. -/
  respectVisibility : Bool
deriving DecidableEq, Repr

/-- A yes or no property of a vertex; a value of another kind counts as missing. -/
def Vertex.flag (v : Vertex) (key : String) (default : Bool) : Bool :=
  ((v.properties.get? key).bind Value.asBool?).getD default

/-- A vertex may be recommended when it is enabled, not deleted and approved. What is not said is
taken for the better; an approval that is no text counts as not said. -/
def Vertex.isRecommendable (v : Vertex) : Bool :=
  v.flag "is_enabled" true && !v.flag "is_deleted" false
    && ((v.properties.get? "approval_status").bind Value.asText?).all (· = "APPROVED")

namespace Catalog

def entry (g : Graph) (index : VertexIndex) : Except GraphError CatalogEntry := do
  let v ← g.vertex index
  let edges ← g.edgesOf index .outgoing [Domain.Label.inAgency]
  let agencies ← edges.mapM fun edge ↦ do
    let target ← g.vertex (← g.edge edge).target
    return target.id
  return ⟨index, v.id, v.isRecommendable, v.flag "is_private" false, agencies⟩

def build (g : Graph) (respectVisibility : Bool) : Except GraphError Catalog := do
  let entries ← (g.verticesWithLabel Domain.Label.listing).mapM (entry g)
  return ⟨entries, respectVisibility⟩

def listings (c : Catalog) : List VertexIndex := c.entries.map (·.index)

/-- The entry of a vertex, if it is a listing. -/
def find? (c : Catalog) (index : VertexIndex) : Option CatalogEntry :=
  c.entries.find? (·.index = index)

/-- The id of a vertex, if it is a listing. -/
def id? (c : Catalog) (index : VertexIndex) : Option ElementId := (c.find? index).map (·.id)

/-- Whether a profile of the given agencies sees a vertex. Only listings are ever seen. -/
def visibleTo (c : Catalog) (index : VertexIndex) (agencies : List ElementId) : Bool :=
  (c.find? index).any fun e ↦
    !c.respectVisibility
      || e.recommendable && (!e.isPrivate || e.agencies.any fun a ↦ agencies.contains a)

def size (c : Catalog) : Nat := c.entries.length

def isEmpty (c : Catalog) : Bool := c.entries.isEmpty

end Catalog

end BookmarkGraph
