import BookmarkGraph.Domain.Snapshot
import BookmarkGraph.Graph.Basic

/-!
# The graph of a snapshot

Every row of the tables of agencies, categories, profiles and listings becomes a vertex. Its id is
the key of the row behind a letter for the table, so rows of different tables never clash. Every
reference between rows becomes an edge; a reference to a row that does not exist is dropped and
counted.

## Contents

* `Domain.Label`: the labels of vertices and edges;
* `Domain.profileId` and its companions: the ids of vertices;
* `Snapshot.buildWithReport`, `Snapshot.build`: the graph of a snapshot.
-/

namespace BookmarkGraph

namespace Domain

namespace Label

/-- The label of profiles. -/
def profile : String := "profile"

/-- The label of listings. -/
def listing : String := "listing"

/-- The label of categories. -/
def category : String := "category"

/-- The label of agencies. -/
def agency : String := "agency"

/-- From a profile to a listing that it keeps a bookmark of. -/
def bookmarked : String := "bookmarked"

/-- From a profile to an agency that it belongs to, and from a listing to the agency that owns
it. -/
def inAgency : String := "agency"

/-- From a profile to an agency that it is a steward for. -/
def stewardFor : String := "stewardFor"

/-- From a listing to one of its categories. -/
def listingCategory : String := "listingCategory"

end Label

/-- The id of a row behind the letter of its table. -/
def rowId (letter : String) (key : UInt64) : ElementId :=
  .name (letter ++ "-" ++ toString key.toNat)

def profileId (key : UInt64) : ElementId := rowId "p" key

def listingId (key : UInt64) : ElementId := rowId "l" key

def categoryId (key : UInt64) : ElementId := rowId "c" key

def agencyId (key : UInt64) : ElementId := rowId "a" key

end Domain

/-! ## Properties of rows -/

def AgencyRecord.properties (r : AgencyRecord) : Properties :=
  .ofList [("title", .text r.title), ("short_name", .text r.shortName)]

def CategoryRecord.properties (r : CategoryRecord) : Properties :=
  .ofList [("title", .text r.title)]

/-- The properties of a profile; a role is only entered if there is one. -/
def ProfileRecord.properties (r : ProfileRecord) : Properties :=
  let props := Properties.ofList [("username", .text r.username)]
  match r.role with
  | some role => props.insert "role" (.text role)
  | none => props

def ListingRecord.properties (r : ListingRecord) : Properties :=
  .ofList [
    ("title", .text r.title),
    ("description", match r.description with | some text => .text text | none => .null),
    ("is_enabled", .bool r.isEnabled),
    ("is_deleted", .bool r.isDeleted),
    ("is_featured", .bool r.isFeatured),
    ("is_private", .bool r.isPrivate),
    ("approval_status", .text r.approvalStatus)]

/-! ## Building -/

/-- What happened while a graph was built. -/
structure BuildReport where
  /-- The number of vertices inserted. -/
  vertices : Nat := 0
  /-- The number of edges inserted. -/
  edges : Nat := 0
  /-- The number of references that were dropped because a row is missing. -/
  skippedReferences : Nat := 0
deriving DecidableEq, Repr

/-- A graph under construction. -/
structure Builder where
  /-- The graph so far. -/
  graph : Graph
  /-- The counts so far. -/
  report : BuildReport

namespace Builder

def empty : Builder := ⟨.empty, {}⟩

/-- Inserts a row as a vertex. -/
def vertex (b : Builder) (label : String) (props : Properties) (id : ElementId) :
    Except GraphError (VertexIndex × Builder) :=
  let mutation := b.graph.addVertex label props (some id)
  match mutation.answer with
  | .error e => .error e
  | .ok index =>
    .ok (index, ⟨mutation.graph, { b.report with vertices := b.report.vertices + 1 }⟩)

/-- Drops a reference. -/
def skip (b : Builder) : Builder :=
  { b with report := { b.report with skippedReferences := b.report.skippedReferences + 1 } }

/-- Inserts a reference from a row to the row with an id, or drops it if there is none. -/
def reference (label : String) (source : VertexIndex) (b : Builder) (target : ElementId) :
    Except GraphError Builder :=
  match b.graph.find? target with
  | none => .ok b.skip
  | some index =>
    let mutation := b.graph.addEdge label source index .empty
    match mutation.answer with
    | .error e => .error e
    | .ok _ => .ok ⟨mutation.graph, { b.report with edges := b.report.edges + 1 }⟩

/-- Inserts an agency. -/
def agency (b : Builder) (r : AgencyRecord) : Except GraphError Builder := do
  let (_, b) ← b.vertex Domain.Label.agency r.properties (Domain.agencyId r.id)
  return b

/-- Inserts a category. -/
def category (b : Builder) (r : CategoryRecord) : Except GraphError Builder := do
  let (_, b) ← b.vertex Domain.Label.category r.properties (Domain.categoryId r.id)
  return b

/-- Inserts a profile with the agencies it belongs to and those it is a steward for. -/
def profile (b : Builder) (r : ProfileRecord) : Except GraphError Builder := do
  let (index, b) ← b.vertex Domain.Label.profile r.properties (Domain.profileId r.id)
  let b ← (r.organizations.map Domain.agencyId).foldlM
    (reference Domain.Label.inAgency index) b
  (r.stewardedOrganizations.map Domain.agencyId).foldlM
    (reference Domain.Label.stewardFor index) b

/-- Inserts a listing with its categories and its agency. -/
def listing (b : Builder) (r : ListingRecord) : Except GraphError Builder := do
  let (index, b) ← b.vertex Domain.Label.listing r.properties (Domain.listingId r.id)
  let b ← (r.categories.map Domain.categoryId).foldlM
    (reference Domain.Label.listingCategory index) b
  (r.agency.toList.map Domain.agencyId).foldlM (reference Domain.Label.inAgency index) b

/-- Inserts a bookmark. If its profile is missing the listing is not looked for. -/
def bookmark (b : Builder) (r : BookmarkRecord) : Except GraphError Builder :=
  match b.graph.find? (Domain.profileId r.profile) with
  | none => .ok b.skip
  | some index => b.reference Domain.Label.bookmarked index (Domain.listingId r.listing)

end Builder

namespace Snapshot

/-- The graph of a snapshot, with the counts of its construction. A repeated key ends it. -/
def buildWithReport (s : Snapshot) : Except GraphError (Graph × BuildReport) := do
  let b ← s.agencies.foldlM Builder.agency Builder.empty
  let b ← s.categories.foldlM Builder.category b
  let b ← s.profiles.foldlM Builder.profile b
  let b ← s.listings.foldlM Builder.listing b
  let b ← s.bookmarks.foldlM Builder.bookmark b
  return (b.graph, b.report)

def build (s : Snapshot) : Except GraphError Graph := s.buildWithReport.map (·.1)

end Snapshot

end BookmarkGraph
