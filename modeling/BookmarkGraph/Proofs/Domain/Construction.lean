import BookmarkGraph.Proofs.Domain.Build
import BookmarkGraph.Proofs.Graph.Ids

/-!
# Construction ends early only on a repeated key

A construction that succeeds shows the rows and the links of its snapshot. Here is when it succeeds,
with which error it ends when it does not, and what its report counts.

A step has three errors at its disposal: an id that exists, an endpoint that does not, and an arena
that is full. Endpoints are looked up right before they are used, so the second never arises, and
the third needs more rows or references than an arena holds. The first arises at the first row whose
key stands in its own table before; keys of different tables never clash.

The report is followed along the same steps. Every reference is counted once, as an edge or as
skipped, and a bookmark whose profile is missing is skipped without a look at its listing.
-/

namespace BookmarkGraph

open Domain

/-! ## The first repetition -/

/-- An element that stands earlier in a list, where nothing before it is repeated. -/
def FirstRepeated {α : Type} (xs : List α) (x : α) : Prop :=
  ∃ before after, xs = before ++ x :: after ∧ before.Nodup ∧ x ∈ before

theorem FirstRepeated.mono {α : Type} {xs ys : List α} {x : α} (h : FirstRepeated xs x)
    (hinit : xs <+: ys) : FirstRepeated ys x := by
  obtain ⟨before, after, rfl, hnodup, hmem⟩ := h
  obtain ⟨more, rfl⟩ := hinit
  exact ⟨before, after ++ more, by rw [List.append_assoc, List.cons_append], hnodup, hmem⟩

theorem FirstRepeated.not_nodup {α : Type} {xs : List α} {x : α} (h : FirstRepeated xs x) :
    ¬ xs.Nodup := by
  obtain ⟨before, after, rfl, -, hmem⟩ := h
  exact fun hnodup ↦ List.disjoint_of_nodup_append hnodup hmem List.mem_cons_self

/-! ## References and keys of a snapshot -/

/-- The references of a profile, whether or not the agencies exist. -/
def ProfileRecord.references (r : ProfileRecord) : List Link :=
  (r.organizations.map agencyId).map (⟨Label.inAgency, profileId r.id, ·⟩)
    ++ (r.stewardedOrganizations.map agencyId).map (⟨Label.stewardFor, profileId r.id, ·⟩)

/-- The references of a listing, whether or not the categories and the agency exist. -/
def ListingRecord.references (r : ListingRecord) : List Link :=
  (r.categories.map categoryId).map (⟨Label.listingCategory, listingId r.id, ·⟩)
    ++ (r.agency.toList.map agencyId).map (⟨Label.inAgency, listingId r.id, ·⟩)

/-- The reference that a bookmark is, whether or not its profile and its listing exist. -/
def BookmarkRecord.reference (r : BookmarkRecord) : Link :=
  ⟨Label.bookmarked, profileId r.profile, listingId r.listing⟩

namespace Snapshot

/-- Every reference of a snapshot, in the order in which they are resolved. -/
def references (s : Snapshot) : List Link :=
  s.profiles.flatMap ProfileRecord.references ++ s.listings.flatMap ListingRecord.references
    ++ s.bookmarks.map BookmarkRecord.reference

/-- No table has two rows with the same key. -/
structure KeysDistinct (s : Snapshot) : Prop where
  /-- Agencies. -/
  agencies : (s.agencies.map (·.id)).Nodup
  /-- Categories. -/
  categories : (s.categories.map (·.id)).Nodup
  /-- Profiles. -/
  profiles : (s.profiles.map (·.id)).Nodup
  /-- Listings. -/
  listings : (s.listings.map (·.id)).Nodup

theorem nodup_rowIds {letter : String} {keys : List UInt64} :
    (keys.map (rowId letter)).Nodup ↔ keys.Nodup :=
  List.nodup_map_iff fun _ _ h ↦ ((rowId_inj rfl).mp h).2

/-- Rows of different tables have different ids, whatever their keys. -/
theorem keysDistinct_iff {s : Snapshot} : s.KeysDistinct ↔ s.ids.Nodup := by
  have hids : s.ids = (s.agencies.map (·.id)).map (rowId "a")
      ++ (s.categories.map (·.id)).map (rowId "c") ++ (s.profiles.map (·.id)).map (rowId "p")
      ++ (s.listings.map (·.id)).map (rowId "l") := by
    simp only [ids, rows, List.map_append, List.map_map]
    rfl
  have hapart : ∀ {letter other : String} (keys keys' : List UInt64),
      letter.length = other.length → letter ≠ other →
        List.Disjoint (keys.map (rowId letter)) (keys'.map (rowId other)) := by
    intro letter other keys keys' hlength hne id hid hid'
    obtain ⟨key, -, rfl⟩ := List.mem_map.mp hid
    obtain ⟨key', -, heq⟩ := List.mem_map.mp hid'
    exact hne ((rowId_inj hlength).mp heq.symm).1
  rw [hids, List.nodup_append', List.nodup_append', List.nodup_append', nodup_rowIds, nodup_rowIds,
    nodup_rowIds, nodup_rowIds, List.disjoint_append_left, List.disjoint_append_left,
    List.disjoint_append_left]
  constructor
  · rintro ⟨hagencies, hcategories, hprofiles, hlistings⟩
    refine ⟨⟨⟨hagencies, hcategories, hapart _ _ rfl (by decide)⟩, hprofiles,
      hapart _ _ rfl (by decide), hapart _ _ rfl (by decide)⟩, hlistings,
      ⟨hapart _ _ rfl (by decide), hapart _ _ rfl (by decide)⟩, hapart _ _ rfl (by decide)⟩
  · rintro ⟨⟨⟨hagencies, hcategories, -⟩, hprofiles, -⟩, hlistings, -⟩
    exact ⟨hagencies, hcategories, hprofiles, hlistings⟩

end Snapshot

/-! ## One step -/

namespace Builder

/-- Why a construction from the given rows and references can end early. -/
inductive Fault (rows : List Row) (references : List Link) : GraphError → Prop
  /-- The id is the first to be repeated. -/
  | repeated {id : ElementId} :
    FirstRepeated (rows.map (·.id)) id → Fault rows references (.duplicateId id)
  /-- An arena cannot hold that much. -/
  | full : Graph.arenaCapacity < rows.length ∨ Graph.arenaCapacity < references.length →
    Fault rows references (.invalidState .arenaFull)

theorem Fault.mono {rows rows' : List Row} {references references' : List Link}
    {e : GraphError} (h : Fault rows references e) (hrows : rows <+: rows')
    (hreferences : references <+: references') : Fault rows' references' e := by
  cases h with
  | repeated hid => exact .repeated (hid.mono (hrows.map _))
  | full hfull =>
    exact .full (hfull.imp (Nat.lt_of_lt_of_le · hrows.length_le)
      (Nat.lt_of_lt_of_le · hreferences.length_le))

/-- A builder after the given rows and references, with counts that say what has become of them. -/
structure Accounts (b : Builder) (rows : List Row) (references : List Link) : Prop where
  /-- The rows are there. -/
  shows : ∃ links, b.graph.Shows rows links
  /-- Every vertex is counted. -/
  vertices_eq : b.report.vertices = b.graph.vertexCount
  /-- Every edge is counted. -/
  edges_eq : b.report.edges = b.graph.edgeCount
  /-- A reference is an edge or is skipped. -/
  references_eq : b.report.edges + b.report.skippedReferences = references.length

/-- A construction that accounts for the given rows and references, or ends early for a reason. -/
def Accounted (rows : List Row) (references : List Link) : Except GraphError Builder → Prop :=
  Yields (Fault rows references) (·.Accounts rows references)

variable {b : Builder} {rows : List Row} {references : List Link}

theorem accounts_empty : empty.Accounts [] [] := ⟨⟨[], shows_empty⟩, rfl, rfl, rfl⟩

theorem Accounts.vertices_size (hb : b.Accounts rows references) :
    b.graph.vertices.size = rows.length := by
  obtain ⟨links, hshows⟩ := hb.shows
  rw [← Graph.length_ids, Graph.ids, hshows.rows_eq, List.length_map]

theorem Accounts.edges_size_le (hb : b.Accounts rows references) :
    b.graph.edges.size ≤ references.length := by
  rw [← hb.references_eq, hb.edges_eq]
  exact Nat.le_add_right _ _

theorem Accounts.find?_lt (hb : b.Accounts rows references) {id : ElementId} {index : VertexIndex}
    (h : b.graph.find? id = some index) : index.position.toNat < rows.length := by
  obtain ⟨links, hshows⟩ := hb.shows
  obtain ⟨v, hv, -⟩ := hshows.reachable.indexed.vertex_of_find? h
  rw [← hb.vertices_size]
  exact Graph.position_lt hv

theorem vertex_eq (b : Builder) (label : String) (props : Properties) (id : ElementId) :
    b.vertex label props id =
      if b.graph.hasId id then .error (.duplicateId id)
      else if b.graph.vertices.size < Graph.arenaCapacity then
        .ok (⟨UInt32.ofNat b.graph.vertices.size⟩,
          ⟨b.graph.pushVertex id label props,
            { b.report with vertices := b.report.vertices + 1 }⟩)
      else .error (.invalidState .arenaFull) := by
  rw [vertex, Graph.addVertex, Graph.appendVertex]
  split_ifs <;> rfl

/-- An edge between places of the arena has the arena of edges as its only limit. -/
theorem reference_of_find? (label : String) {source index : VertexIndex} {target : ElementId}
    (hfind : b.graph.find? target = some index)
    (hsource : source.position.toNat < b.graph.vertices.size)
    (hindex : index.position.toNat < b.graph.vertices.size) :
    reference label source b target =
      if b.graph.edges.size < Graph.arenaCapacity then
        .ok ⟨b.graph.register label source index .empty,
          { b.report with edges := b.report.edges + 1 }⟩
      else .error (.invalidState .arenaFull) := by
  have hends : ¬ (decide (b.graph.vertices.size ≤ source.position.toNat)
      || decide (b.graph.vertices.size ≤ index.position.toNat)) = true := by
    rw [Bool.or_eq_true, decide_eq_true_eq, decide_eq_true_eq]
    omega
  simp only [reference, hfind, Graph.addEdge, if_neg hends]
  split_ifs <;> rfl

/-- A row becomes a vertex at a place of the arena, or its id is the first to be repeated, or the
arena is full. -/
theorem vertex_yields (hb : b.Accounts rows references) (row : Row) :
    Yields (Fault (rows ++ [row]) references)
      (fun next ↦ next.2.Accounts (rows ++ [row]) references ∧
        next.1.position.toNat < (rows ++ [row]).length)
      (b.vertex row.label row.properties row.id) := by
  obtain ⟨links, hshows⟩ := hb.shows
  have heq := b.vertex_eq row.label row.properties row.id
  split at heq
  · rename_i htaken
    rw [hshows.reachable.indexed.hasId_eq_true, Graph.ids, hshows.rows_eq] at htaken
    rw [heq]
    -- the ids so far are distinct, so no repetition comes before this one
    exact .repeated ⟨_, [], List.map_append, hshows.nodup_ids, htaken⟩
  · split at heq
    · obtain ⟨hnext, hplace⟩ := shows_vertex hshows heq
      obtain ⟨hlt, -⟩ := List.getElem?_eq_some_iff.mp hplace
      rw [heq]
      refine ⟨⟨⟨links, hnext⟩, ?_, hb.edges_eq, hb.references_eq⟩, ?_⟩
      · rw [Graph.vertexCount, Graph.pushVertex, Array.size_push, hb.vertices_eq, Graph.vertexCount]
      · rw [List.length_append, List.length_map] at hlt
        rwa [List.length_append]
    · rename_i hfull
      rw [hb.vertices_size, Nat.not_lt] at hfull
      rw [heq]
      refine .full (.inl ?_)
      rw [List.length_append, List.length_singleton]
      exact Nat.lt_succ_of_le hfull

/-- A reference becomes an edge or is skipped. Both of its ends are in the arena by then, so the
only error is a full arena. -/
theorem accounted_reference {source : VertexIndex} (hsource : source.position.toNat < rows.length)
    (hb : b.Accounts rows references) (link : Link) :
    Accounted rows (references ++ [link]) (reference link.label source b link.target) := by
  obtain ⟨links, hshows⟩ := hb.shows
  have hplace : (rows.map Row.id)[source.position.toNat]?
      = some rows[source.position.toNat].id := by
    rw [List.getElem?_map, List.getElem?_eq_getElem hsource]
    rfl
  have hcount : (references ++ [link]).length
      = b.report.edges + b.report.skippedReferences + 1 := by
    rw [hb.references_eq, List.length_append, List.length_singleton]
  cases hfind : b.graph.find? link.target with
  | none =>
    have heq : reference link.label source b link.target = .ok b.skip := by rw [reference, hfind]
    rw [heq]
    exact ⟨⟨_, shows_reference hshows hplace heq⟩, hb.vertices_eq, hb.edges_eq, hcount.symm⟩
  | some index =>
    have heq := reference_of_find? link.label hfind (hb.vertices_size ▸ hsource)
      (hb.vertices_size ▸ hb.find?_lt hfind)
    split at heq
    · rw [heq]
      refine ⟨⟨_, shows_reference hshows hplace heq⟩, ?_, ?_, ?_⟩
      · rw [hb.vertices_eq, Graph.vertexCount, Graph.vertexCount, Graph.size_vertices_register]
      · rw [hb.edges_eq, Graph.edgeCount, Graph.edgeCount, Graph.register, Array.size_push]
      · rw [hcount, Nat.add_right_comm]
    · rename_i hfull
      have hle := hb.edges_size_le
      rw [heq]
      refine .full (.inr ?_)
      rw [List.length_append, List.length_singleton]
      omega

/-! ## Runs of steps -/

theorem Accounted.bind {x : Except GraphError Builder} {f : Builder → Except GraphError Builder}
    {rows' : List Row} {references' : List Link} (hx : Accounted rows references x)
    (hrows : rows <+: rows') (hreferences : references <+: references')
    (hf : ∀ b : Builder, b.Accounts rows references → Accounted rows' references' (f b)) :
    Accounted rows' references' (x >>= f) :=
  Yields.bind hx (fun _ he ↦ he.mono hrows hreferences) hf

theorem accounted_references {source : VertexIndex} (hsource : source.position.toNat < rows.length)
    (hb : b.Accounts rows references) (label : String) (id : ElementId) (targets : List ElementId) :
    Accounted rows (references ++ targets.map (⟨label, id, ·⟩))
      (targets.foldlM (reference label source) b) := by
  induction targets generalizing b references with
  | nil =>
    rw [List.map_nil, List.append_nil]
    exact hb
  | cons target targets ih =>
    rw [List.foldlM_cons, List.map_cons, List.append_cons]
    exact (accounted_reference hsource hb ⟨label, id, target⟩).bind List.prefix_rfl
      (List.prefix_append ..) fun b hb ↦ ih hb

theorem accounted_record (hb : b.Accounts rows references) (row : Row) (label₁ label₂ : String)
    (first second : List ElementId) :
    Accounted (rows ++ [row]) (references
        ++ (first.map (⟨label₁, row.id, ·⟩) ++ second.map (⟨label₂, row.id, ·⟩)))
      (b.vertex row.label row.properties row.id >>= fun next ↦
        first.foldlM (reference label₁ next.1) next.2 >>= fun b ↦
          second.foldlM (reference label₂ next.1) b) := by
  rw [← List.append_assoc]
  refine (vertex_yields hb row).bind (fun e he ↦ ?_) fun next hnext ↦ ?_
  · rw [List.append_assoc]
    exact he.mono List.prefix_rfl (List.prefix_append ..)
  · exact (accounted_references hnext.2 hnext.1 label₁ row.id first).bind List.prefix_rfl
      (List.prefix_append ..) fun b hb ↦ accounted_references hnext.2 hb label₂ row.id second

/-- What each record of a table adds, the table adds in its order. -/
theorem Accounted.table {α : Type} {f : Builder → α → Except GraphError Builder}
    {row : α → List Row} {reference : α → List Link} {x : Except GraphError Builder}
    (hx : Accounted rows references x) (records : List α)
    (hstep : ∀ {b : Builder} {rows : List Row} {references : List Link},
      b.Accounts rows references → ∀ r : α,
        Accounted (rows ++ row r) (references ++ reference r) (f b r)) :
    Accounted (rows ++ records.flatMap row) (references ++ records.flatMap reference)
      (x >>= fun b ↦ records.foldlM f b) := by
  refine hx.bind (List.prefix_append ..) (List.prefix_append ..) fun b hb ↦ ?_
  -- the induction runs over any rows and references so far, not those that `hx` is about
  clear hx
  induction records generalizing b rows references with
  | nil =>
    rw [List.flatMap_nil, List.flatMap_nil, List.append_nil, List.append_nil]
    exact hb
  | cons r records ih =>
    rw [List.foldlM_cons, List.flatMap_cons, List.flatMap_cons, ← List.append_assoc,
      ← List.append_assoc]
    exact (hstep hb r).bind (List.prefix_append ..) (List.prefix_append ..) ih

theorem accounted_agency (hb : b.Accounts rows references) (r : AgencyRecord) :
    Accounted (rows ++ [r.row]) (references ++ []) (b.agency r) :=
  accounted_record hb r.row "" "" [] []

theorem accounted_category (hb : b.Accounts rows references) (r : CategoryRecord) :
    Accounted (rows ++ [r.row]) (references ++ []) (b.category r) :=
  accounted_record hb r.row "" "" [] []

theorem accounted_profile (hb : b.Accounts rows references) (r : ProfileRecord) :
    Accounted (rows ++ [r.row]) (references ++ r.references) (b.profile r) :=
  accounted_record hb r.row Label.inAgency Label.stewardFor (r.organizations.map agencyId)
    (r.stewardedOrganizations.map agencyId)

theorem accounted_listing (hb : b.Accounts rows references) (r : ListingRecord) :
    Accounted (rows ++ [r.row]) (references ++ r.references) (b.listing r) :=
  accounted_record hb r.row Label.listingCategory Label.inAgency (r.categories.map categoryId)
    (r.agency.toList.map agencyId)

/-- A bookmark is one reference, also where its profile and its listing are both missing. -/
theorem accounted_bookmark (hb : b.Accounts rows references) (r : BookmarkRecord) :
    Accounted (rows ++ []) (references ++ [r.reference]) (b.bookmark r) := by
  rw [List.append_nil, bookmark]
  cases hfind : b.graph.find? (profileId r.profile) with
  | none =>
    refine ⟨hb.shows, hb.vertices_eq, hb.edges_eq, ?_⟩
    rw [List.length_append, ← hb.references_eq]
    rfl
  | some index => exact accounted_reference (hb.find?_lt hfind) hb r.reference

end Builder

namespace Snapshot

open Builder

/-- Every construction accounts for the rows and the references of its snapshot, or ends early for a
reason. -/
theorem buildWithReport_yields (s : Snapshot) :
    Yields (Fault s.rows s.references)
      (fun built ↦ (⟨built.1, built.2⟩ : Builder).Accounts s.rows s.references)
      s.buildWithReport := by
  have hempty : Accounted [] [] (.ok Builder.empty) := accounts_empty
  have htables := ((((hempty.table s.agencies accounted_agency).table s.categories
    accounted_category).table s.profiles accounted_profile).table s.listings
      accounted_listing).table s.bookmarks accounted_bookmark
  have hnone : ∀ {α β : Type} (xs : List α), xs.flatMap (fun _ ↦ ([] : List β)) = [] :=
    fun xs ↦ List.flatMap_eq_nil_iff.mpr fun _ _ ↦ rfl
  simp only [hnone, List.nil_append, List.append_nil, ← List.map_eq_flatMap] at htables
  have hend : Yields (Fault s.rows s.references)
      (fun built : Graph × BuildReport ↦
        (⟨built.1, built.2⟩ : Builder).Accounts s.rows s.references)
      (_ >>= fun b : Builder ↦ .ok (b.graph, b.report)) :=
    Yields.bind htables (fun _ he ↦ he) fun b hb ↦ hb
  -- the tables were chained from the left, the construction binds to the right
  simp only [bind_assoc, ok_bind] at hend
  exact hend

/-! ## Which references are kept -/

def Resolves (s : Snapshot) (link : Link) : Prop := link.source ∈ s.ids ∧ link.target ∈ s.ids

instance (s : Snapshot) (link : Link) : Decidable (s.Resolves link) := instDecidableAnd

theorem filter_references {s : Snapshot} {source : ElementId} (hsource : source ∈ s.ids)
    (label : String) (targets : List ElementId) :
    (targets.map (Link.mk label source)).filter (s.Resolves ·)
      = (targets.filter (· ∈ s.ids)).map (Link.mk label source) := by
  rw [List.filter_map]
  refine congrArg (List.map _) (List.filter_congr fun target _ ↦ ?_)
  exact decide_eq_decide.mpr (and_iff_right hsource)

theorem filter_profileReferences {s : Snapshot} {r : ProfileRecord} (hr : r ∈ s.profiles) :
    r.references.filter (s.Resolves ·) = s.profileLinks r := by
  have hsource : profileId r.id ∈ s.ids := profileId_mem_ids.mpr ⟨r, hr, rfl⟩
  rw [ProfileRecord.references, List.filter_append, filter_references hsource,
    filter_references hsource, profileLinks]

theorem filter_listingReferences {s : Snapshot} {r : ListingRecord} (hr : r ∈ s.listings) :
    r.references.filter (s.Resolves ·) = s.listingLinks r := by
  have hsource : listingId r.id ∈ s.ids := listingId_mem_ids.mpr ⟨r, hr, rfl⟩
  rw [ListingRecord.references, List.filter_append, filter_references hsource,
    filter_references hsource, listingLinks]

theorem filter_bookmarkReference (s : Snapshot) (r : BookmarkRecord) :
    [r.reference].filter (s.Resolves ·) = s.bookmarkLinks r := by
  rw [bookmarkLinks, List.filter_cons, List.filter_nil]
  simp only [decide_eq_true_eq]
  rfl

/-- A reference is kept if and only if both of its ends have a row. -/
theorem filter_references_eq (s : Snapshot) : s.references.filter (s.Resolves ·) = s.links := by
  have hprofiles : s.profiles.flatMap (fun r ↦ r.references.filter (s.Resolves ·))
      = s.profiles.flatMap s.profileLinks :=
    List.flatMap_congr fun r hr ↦ filter_profileReferences hr
  have hlistings : s.listings.flatMap (fun r ↦ r.references.filter (s.Resolves ·))
      = s.listings.flatMap s.listingLinks :=
    List.flatMap_congr fun r hr ↦ filter_listingReferences hr
  have hbookmarks : s.bookmarks.flatMap (fun r ↦ [r.reference].filter (s.Resolves ·))
      = s.bookmarks.flatMap s.bookmarkLinks :=
    List.flatMap_congr fun r _ ↦ s.filter_bookmarkReference r
  rw [references, links, List.map_eq_flatMap, List.filter_append, List.filter_append,
    List.filter_flatMap, List.filter_flatMap, List.filter_flatMap, hprofiles, hlistings, hbookmarks]

/-! ## Construction -/

/-- A graph and a report that say everything that a snapshot says. -/
structure Describes (s : Snapshot) (g : Graph) (report : BuildReport) : Prop where
  /-- There is one vertex for every record, with its id, in the order of the tables. -/
  rows_eq : g.rows = s.rows
  /-- There is one edge for every reference that has both of its ends, in the order of the
  references. -/
  links_eq : g.links = s.references.filter (s.Resolves ·)
  /-- Vertices are counted. -/
  vertices_eq : report.vertices = g.vertexCount
  /-- Edges are counted. -/
  edges_eq : report.edges = g.edgeCount
  /-- Every other reference is counted as skipped, once. -/
  references_eq : report.edges + report.skippedReferences = s.references.length

section Ends

variable {s : Snapshot} (hrows : s.rows.length ≤ Graph.arenaCapacity)
  (hreferences : s.references.length ≤ Graph.arenaCapacity)

include hrows hreferences

/-- Where the arenas have room, a construction can only end early on the first repeated id. -/
theorem firstRepeated_of_error {e : GraphError} (h : s.buildWithReport = .error e) :
    ∃ id, FirstRepeated s.ids id ∧ e = .duplicateId id := by
  have hyields := s.buildWithReport_yields
  rw [h] at hyields
  cases hyields with
  | @repeated id hid => exact ⟨id, hid, rfl⟩
  | full hfull => omega

theorem exists_error_iff : (∃ e, s.buildWithReport = .error e) ↔ ¬ s.KeysDistinct := by
  constructor
  · rintro ⟨e, he⟩
    obtain ⟨id, hid, -⟩ := firstRepeated_of_error hrows hreferences he
    rw [keysDistinct_iff]
    exact hid.not_nodup
  · intro hkeys
    cases h : s.buildWithReport with
    | error e => exact ⟨e, rfl⟩
    | ok built =>
      exact absurd (keysDistinct_iff.mpr (shows_of_build h).nodup_ids) hkeys

end Ends

/-- **Construction.** It fails if and only if some table has two rows with the same key, and the
error then names the first row that repeats one before it, in the order of the tables. Otherwise the
graph and the report say everything that the snapshot says. -/
theorem construction_complete (s : Snapshot) (hrows : s.rows.length ≤ Graph.arenaCapacity)
    (hreferences : s.references.length ≤ Graph.arenaCapacity) :
    ((∃ e, s.buildWithReport = .error e) ↔ ¬ s.KeysDistinct) ∧
      (∀ e, s.buildWithReport = .error e → ∃ id, FirstRepeated s.ids id ∧ e = .duplicateId id) ∧
      ∀ g report, s.buildWithReport = .ok (g, report) → s.Describes g report := by
  refine ⟨exists_error_iff hrows hreferences, fun e ↦ firstRepeated_of_error hrows hreferences,
    fun g report hok ↦ ?_⟩
  have hyields := s.buildWithReport_yields
  rw [hok] at hyields
  have hshows := shows_of_build hok
  exact ⟨hshows.rows_eq, hshows.links_eq.trans s.filter_references_eq.symm, hyields.vertices_eq,
    hyields.edges_eq, hyields.references_eq⟩

/-- A snapshot with references that lead nowhere, among them a bookmark without either end. The same
key stands in every table. -/
def ragged : Snapshot where
  agencies := [⟨7, "Ministry of Widgets", "MoW"⟩]
  categories := [⟨7, "Tools"⟩]
  profiles := [⟨7, "alice", some "USER", [7, 7], [7, 99]⟩]
  listings := [{ id := 7, title := "Hammer", categories := [3, 7], agency := some 7 }]
  bookmarks := [⟨7, 7⟩, ⟨7, 8⟩, ⟨2, 7⟩, ⟨2, 8⟩]

/-- A snapshot in which a listing is repeated and, in an earlier table, a category. -/
def repetitive : Snapshot where
  categories := [⟨3, "Tools"⟩, ⟨4, "Toys"⟩, ⟨3, "Trinkets"⟩]
  listings := [{ id := 7, title := "Hammer", categories := [3] }, { id := 7, title := "Nail" }]

theorem construction_complete_ragged :
    (ragged.rows.length ≤ Graph.arenaCapacity ∧ ragged.references.length ≤ Graph.arenaCapacity ∧
      ∃ g, ragged.buildWithReport = .ok (g, ⟨4, 6, 5⟩) ∧ ragged.Describes g ⟨4, 6, 5⟩) ∧
    repetitive.rows.length ≤ Graph.arenaCapacity ∧
      repetitive.references.length ≤ Graph.arenaCapacity ∧
      FirstRepeated repetitive.ids (categoryId 3) ∧
        repetitive.buildWithReport = .error (.duplicateId (categoryId 3)) := by
  have hragged := construction_complete ragged (by decide) (by decide)
  have hrepetitive := construction_complete repetitive (by decide) (by decide)
  have hreport : ragged.buildWithReport.map (·.2) = .ok ⟨4, 6, 5⟩ := by decide +kernel
  have herror : repetitive.buildWithReport.map (·.2) = .error (.duplicateId (categoryId 3)) := by
    decide +kernel
  obtain ⟨⟨g, report⟩, hok, rfl⟩ := map_eq_ok.mp hreport
  obtain ⟨e, he⟩ := hrepetitive.1.mpr fun hkeys ↦ absurd hkeys.categories (by decide)
  obtain ⟨id, hid, rfl⟩ := hrepetitive.2.1 e he
  rw [he] at herror
  obtain rfl := GraphError.duplicateId.inj (Except.error.inj herror)
  exact ⟨⟨by decide, by decide, g, hok, hragged.2.2 g _ hok⟩, by decide, by decide, hid, he⟩

end Snapshot

end BookmarkGraph
