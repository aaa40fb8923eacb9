import BookmarkGraph.Domain.Build
import BookmarkGraph.Proofs.Graph.Content
import BookmarkGraph.Proofs.Outcome
import Std.Data.String.ToNat

/-!
# The graph of a snapshot is what the snapshot says

`Snapshot.rows` and `Snapshot.links` say without a graph which vertices and edges a snapshot stands
for: one row for every record, and one link for every reference between records that exist. A
construction that succeeds shows precisely these, in this order, and no id twice.

## The order of construction

A reference is resolved when its record is inserted, against the vertices inserted so far. The
tables are read in an order in which every table that a record can refer to is complete by then, and
ids of different tables never clash, so resolving against the vertices so far and against the whole
snapshot is the same.
-/

namespace BookmarkGraph

/-! ## Ids of records -/

namespace Domain

/-- Letters of one length keep the ids of different tables apart. -/
theorem rowId_inj {letter other : String} (h : letter.length = other.length) {a b : UInt64} :
    rowId letter a = rowId other b ↔ letter = other ∧ a = b := by
  constructor
  · intro heq
    have hlists := congrArg String.toList (ElementId.name.inj heq)
    simp only [String.toList_append, List.append_assoc] at hlists
    obtain ⟨hletter, hrest⟩ := List.append_inj hlists h
    have hdigits := String.toList_injective (List.append_cancel_left hrest)
    exact ⟨String.toList_injective hletter, UInt64.toNat_inj.mp (Nat.repr_injective hdigits)⟩
  · rintro ⟨rfl, rfl⟩
    rfl

end Domain

open Domain

/-! ## What a snapshot stands for -/

def AgencyRecord.row (r : AgencyRecord) : Row := ⟨Label.agency, agencyId r.id, r.properties⟩

def CategoryRecord.row (r : CategoryRecord) : Row :=
  ⟨Label.category, categoryId r.id, r.properties⟩

def ProfileRecord.row (r : ProfileRecord) : Row := ⟨Label.profile, profileId r.id, r.properties⟩

def ListingRecord.row (r : ListingRecord) : Row := ⟨Label.listing, listingId r.id, r.properties⟩

namespace Snapshot

/-- The vertices that a snapshot stands for. -/
def rows (s : Snapshot) : List Row :=
  s.agencies.map AgencyRecord.row ++ s.categories.map CategoryRecord.row
    ++ s.profiles.map ProfileRecord.row ++ s.listings.map ListingRecord.row

def ids (s : Snapshot) : List ElementId := s.rows.map (·.id)

/-- The references of a profile to agencies that exist. -/
def profileLinks (s : Snapshot) (r : ProfileRecord) : List Link :=
  ((r.organizations.map agencyId).filter (· ∈ s.ids)).map
      (⟨Label.inAgency, profileId r.id, ·⟩)
    ++ ((r.stewardedOrganizations.map agencyId).filter (· ∈ s.ids)).map
      (⟨Label.stewardFor, profileId r.id, ·⟩)

/-- The references of a listing to categories and an agency that exist. -/
def listingLinks (s : Snapshot) (r : ListingRecord) : List Link :=
  ((r.categories.map categoryId).filter (· ∈ s.ids)).map
      (⟨Label.listingCategory, listingId r.id, ·⟩)
    ++ ((r.agency.toList.map agencyId).filter (· ∈ s.ids)).map
      (⟨Label.inAgency, listingId r.id, ·⟩)

/-- The link of a bookmark between a profile and a listing that exist. -/
def bookmarkLinks (s : Snapshot) (r : BookmarkRecord) : List Link :=
  if profileId r.profile ∈ s.ids ∧ listingId r.listing ∈ s.ids then
    [⟨Label.bookmarked, profileId r.profile, listingId r.listing⟩]
  else []

/-- The edges that a snapshot stands for. -/
def links (s : Snapshot) : List Link :=
  s.profiles.flatMap s.profileLinks ++ s.listings.flatMap s.listingLinks
    ++ s.bookmarks.flatMap s.bookmarkLinks

theorem mem_rows {s : Snapshot} {row : Row} :
    row ∈ s.rows ↔ (∃ r ∈ s.agencies, r.row = row) ∨ (∃ r ∈ s.categories, r.row = row) ∨
      (∃ r ∈ s.profiles, r.row = row) ∨ ∃ r ∈ s.listings, r.row = row := by
  rw [rows, List.mem_append, List.mem_append, List.mem_append, List.mem_map, List.mem_map,
    List.mem_map, List.mem_map, or_assoc, or_assoc]

theorem mem_ids {s : Snapshot} {id : ElementId} :
    id ∈ s.ids ↔ (∃ r ∈ s.agencies, agencyId r.id = id) ∨
      (∃ r ∈ s.categories, categoryId r.id = id) ∨ (∃ r ∈ s.profiles, profileId r.id = id) ∨
        ∃ r ∈ s.listings, listingId r.id = id := by
  rw [ids, List.mem_map]
  constructor
  · rintro ⟨row, hrow, rfl⟩
    rcases mem_rows.mp hrow with ⟨r, hr, rfl⟩ | ⟨r, hr, rfl⟩ | ⟨r, hr, rfl⟩ | ⟨r, hr, rfl⟩
    · exact .inl ⟨r, hr, rfl⟩
    · exact .inr (.inl ⟨r, hr, rfl⟩)
    · exact .inr (.inr (.inl ⟨r, hr, rfl⟩))
    · exact .inr (.inr (.inr ⟨r, hr, rfl⟩))
  · rintro (⟨r, hr, rfl⟩ | ⟨r, hr, rfl⟩ | ⟨r, hr, rfl⟩ | ⟨r, hr, rfl⟩)
    · exact ⟨r.row, mem_rows.mpr (.inl ⟨r, hr, rfl⟩), rfl⟩
    · exact ⟨r.row, mem_rows.mpr (.inr (.inl ⟨r, hr, rfl⟩)), rfl⟩
    · exact ⟨r.row, mem_rows.mpr (.inr (.inr (.inl ⟨r, hr, rfl⟩))), rfl⟩
    · exact ⟨r.row, mem_rows.mpr (.inr (.inr (.inr ⟨r, hr, rfl⟩))), rfl⟩

theorem agencyId_mem_ids {s : Snapshot} {key : UInt64} :
    agencyId key ∈ s.ids ↔ ∃ r ∈ s.agencies, r.id = key := by
  rw [mem_ids]
  simp (disch := decide) [agencyId, categoryId, profileId, listingId, rowId_inj]

theorem categoryId_mem_ids {s : Snapshot} {key : UInt64} :
    categoryId key ∈ s.ids ↔ ∃ r ∈ s.categories, r.id = key := by
  rw [mem_ids]
  simp (disch := decide) [agencyId, categoryId, profileId, listingId, rowId_inj]

theorem profileId_mem_ids {s : Snapshot} {key : UInt64} :
    profileId key ∈ s.ids ↔ ∃ r ∈ s.profiles, r.id = key := by
  rw [mem_ids]
  simp (disch := decide) [agencyId, categoryId, profileId, listingId, rowId_inj]

theorem listingId_mem_ids {s : Snapshot} {key : UInt64} :
    listingId key ∈ s.ids ↔ ∃ r ∈ s.listings, r.id = key := by
  rw [mem_ids]
  simp (disch := decide) [agencyId, categoryId, profileId, listingId, rowId_inj]

/-! ### Records by their rows -/

theorem exists_profile_of_row {s : Snapshot} {row : Row} (h : row ∈ s.rows)
    (hlabel : row.label = Label.profile) : ∃ p ∈ s.profiles, p.row = row := by
  rcases mem_rows.mp h with ⟨r, -, rfl⟩ | ⟨r, -, rfl⟩ | hprofile | ⟨r, -, rfl⟩
  · exact absurd hlabel (show Label.agency ≠ Label.profile by decide)
  · exact absurd hlabel (show Label.category ≠ Label.profile by decide)
  · exact hprofile
  · exact absurd hlabel (show Label.listing ≠ Label.profile by decide)

theorem exists_listing_of_row {s : Snapshot} {row : Row} (h : row ∈ s.rows)
    (hlabel : row.label = Label.listing) : ∃ l ∈ s.listings, l.row = row := by
  rcases mem_rows.mp h with ⟨r, -, rfl⟩ | ⟨r, -, rfl⟩ | ⟨r, -, rfl⟩ | hlisting
  · exact absurd hlabel (show Label.agency ≠ Label.listing by decide)
  · exact absurd hlabel (show Label.category ≠ Label.listing by decide)
  · exact absurd hlabel (show Label.profile ≠ Label.listing by decide)
  · exact hlisting

theorem profile_inj {s : Snapshot} (hids : s.ids.Nodup) {p q : ProfileRecord}
    (hp : p ∈ s.profiles) (hq : q ∈ s.profiles) (h : p.id = q.id) : p = q := by
  have hsublist : (s.profiles.map fun r ↦ r.row.id).Sublist s.ids := by
    rw [ids, rows, List.map_append, List.map_append, ← Function.comp_def, ← List.map_map]
    exact (List.sublist_append_right _ _).trans (List.sublist_append_left _ _)
  exact List.inj_on_of_nodup_map (hids.sublist hsublist) hp hq (congrArg profileId h)

theorem listing_inj {s : Snapshot} (hids : s.ids.Nodup) {l m : ListingRecord}
    (hl : l ∈ s.listings) (hm : m ∈ s.listings) (h : l.id = m.id) : l = m := by
  have hsublist : (s.listings.map fun r ↦ r.row.id).Sublist s.ids := by
    rw [ids, rows, List.map_append, ← Function.comp_def, ← List.map_map]
    exact List.sublist_append_right _ _
  exact List.inj_on_of_nodup_map (hids.sublist hsublist) hl hm (congrArg listingId h)

/-! ### Reading links -/

theorem mem_bookmarkLinks {s : Snapshot} {r : BookmarkRecord} {link : Link} :
    link ∈ s.bookmarkLinks r ↔ (profileId r.profile ∈ s.ids ∧ listingId r.listing ∈ s.ids) ∧
      ⟨Label.bookmarked, profileId r.profile, listingId r.listing⟩ = link := by
  rw [bookmarkLinks]
  split
  · rename_i hboth
    rw [List.mem_singleton, and_iff_right hboth, eq_comm]
  · rename_i hmissing
    exact ⟨fun h ↦ absurd h List.not_mem_nil, fun h ↦ absurd h.1 hmissing⟩

theorem mem_links {s : Snapshot} {link : Link} :
    link ∈ s.links ↔
      (∃ r ∈ s.profiles, ∃ a ∈ r.organizations, agencyId a ∈ s.ids ∧
        ⟨Label.inAgency, profileId r.id, agencyId a⟩ = link) ∨
      (∃ r ∈ s.profiles, ∃ a ∈ r.stewardedOrganizations, agencyId a ∈ s.ids ∧
        ⟨Label.stewardFor, profileId r.id, agencyId a⟩ = link) ∨
      (∃ r ∈ s.listings, ∃ c ∈ r.categories, categoryId c ∈ s.ids ∧
        ⟨Label.listingCategory, listingId r.id, categoryId c⟩ = link) ∨
      (∃ r ∈ s.listings, ∃ a ∈ r.agency, agencyId a ∈ s.ids ∧
        ⟨Label.inAgency, listingId r.id, agencyId a⟩ = link) ∨
      ∃ r ∈ s.bookmarks, (profileId r.profile ∈ s.ids ∧ listingId r.listing ∈ s.ids) ∧
        ⟨Label.bookmarked, profileId r.profile, listingId r.listing⟩ = link := by
  have hprofile : ∀ r, link ∈ s.profileLinks r ↔
      (∃ a ∈ r.organizations, agencyId a ∈ s.ids ∧
        ⟨Label.inAgency, profileId r.id, agencyId a⟩ = link) ∨
      ∃ a ∈ r.stewardedOrganizations, agencyId a ∈ s.ids ∧
        ⟨Label.stewardFor, profileId r.id, agencyId a⟩ = link := by
    intro r
    simp [profileLinks, and_assoc]
  have hlisting : ∀ r, link ∈ s.listingLinks r ↔
      (∃ c ∈ r.categories, categoryId c ∈ s.ids ∧
        ⟨Label.listingCategory, listingId r.id, categoryId c⟩ = link) ∨
      ∃ a ∈ r.agency, agencyId a ∈ s.ids ∧
        ⟨Label.inAgency, listingId r.id, agencyId a⟩ = link := by
    intro r
    simp [listingLinks, and_assoc]
  simp only [links, List.mem_append, List.mem_flatMap, hprofile, hlisting, mem_bookmarkLinks,
    and_or_left, exists_or, or_assoc]

/-- The agencies that are linked from a profile are those of its organizations that exist. -/
theorem mem_links_profile {s : Snapshot} {key : UInt64} {target : ElementId} :
    ⟨Label.inAgency, profileId key, target⟩ ∈ s.links ↔
      ∃ r ∈ s.profiles, ∃ a ∈ r.organizations, agencyId a ∈ s.ids ∧ r.id = key ∧
        agencyId a = target := by
  rw [mem_links]
  simp (disch := decide) [profileId, listingId, rowId_inj, Label.inAgency, Label.stewardFor,
    Label.listingCategory, Label.bookmarked]

theorem mem_links_listing {s : Snapshot} {key : UInt64} {target : ElementId} :
    ⟨Label.inAgency, listingId key, target⟩ ∈ s.links ↔
      ∃ r ∈ s.listings, ∃ a ∈ r.agency, agencyId a ∈ s.ids ∧ r.id = key ∧
        agencyId a = target := by
  rw [mem_links]
  simp (disch := decide) [profileId, listingId, rowId_inj, Label.inAgency, Label.stewardFor,
    Label.listingCategory, Label.bookmarked]

theorem mem_links_bookmarked {s : Snapshot} {source target : ElementId} :
    ⟨Label.bookmarked, source, target⟩ ∈ s.links ↔
      ∃ r ∈ s.bookmarks, (profileId r.profile ∈ s.ids ∧ listingId r.listing ∈ s.ids) ∧
        profileId r.profile = source ∧ listingId r.listing = target := by
  rw [mem_links]
  simp [Label.inAgency, Label.stewardFor, Label.listingCategory, Label.bookmarked]

end Snapshot

/-! ## What one insertion does -/

/-- A reachable graph that shows the given rows, no id twice, and the given links. -/
structure Graph.Shows (g : Graph) (rows : List Row) (links : List Link) : Prop where
  /-- Mutations lead to the graph. -/
  reachable : g.Reachable
  /-- The vertices, in their order. -/
  rows_eq : g.rows = rows
  /-- Ids are unique. -/
  nodup_ids : (rows.map (·.id)).Nodup
  /-- The edges, in their order. -/
  links_eq : g.links = links

namespace Builder

theorem shows_empty : Builder.empty.graph.Shows [] [] := ⟨.empty, rfl, List.nodup_nil, rfl⟩

/-- A vertex that is inserted has a new id and stands at the end. -/
theorem shows_vertex {b b' : Builder} {rows : List Row} {links : List Link} {label : String}
    {props : Properties} {id : ElementId} {index : VertexIndex} (hb : b.graph.Shows rows links)
    (h : b.vertex label props id = .ok (index, b')) :
    b'.graph.Shows (rows ++ [⟨label, id, props⟩]) links ∧
      (rows.map Row.id ++ [id])[index.position.toNat]? = some id := by
  rw [vertex] at h
  have hreach := hb.reachable.addVertex label props (some id)
  obtain ⟨e, heq⟩ | ⟨hid, hroom, heq⟩ := b.graph.addVertex_named label props id
  · simp [heq] at h
  simp only [heq] at h hreach
  obtain ⟨rfl, rfl⟩ := Prod.mk.inj (Except.ok.inj h)
  have hsize : (rows.map (·.id)).length = b.graph.vertices.size := by
    rw [← hb.rows_eq, ← Graph.ids, Graph.length_ids]
  -- the insertion succeeded, so the id passed the check for duplicates
  have hnew : id ∉ rows.map (·.id) := by
    rwa [← hb.rows_eq, ← Graph.ids, ← hb.reachable.indexed.find?_eq_none, ← Graph.hasId_eq_false]
  refine ⟨⟨hreach, ?_, ?_, ?_⟩, ?_⟩
  · rw [Graph.rows_pushVertex, hb.rows_eq]
  · rw [List.map_append]
    exact hb.nodup_ids.append (List.nodup_singleton _) (by simpa using hnew)
  · rw [Graph.links_pushVertex hb.reachable.wellFormed, hb.links_eq]
  · rw [UInt32.toNat_ofNat_of_lt' hroom, ← hsize, List.getElem?_concat_length]

/-- A reference becomes a link if its target exists, and changes nothing otherwise. -/
theorem shows_reference {b b' : Builder} {rows : List Row} {links : List Link} {label : String}
    {source target : ElementId} {index : VertexIndex} (hb : b.graph.Shows rows links)
    (hsource : (rows.map Row.id)[index.position.toNat]? = some source)
    (h : reference label index b target = .ok b') :
    b'.graph.Shows rows
      (links ++ if target ∈ rows.map Row.id then [⟨label, source, target⟩] else []) := by
  have hids : b.graph.ids = rows.map (·.id) := congrArg (List.map _) hb.rows_eq
  rw [reference] at h
  cases hfind : b.graph.find? target with
  | none =>
    rw [hfind] at h
    rw [← hids, if_neg (hb.reachable.indexed.find?_eq_none.mp hfind), List.append_nil,
      ← Except.ok.inj h]
    exact hb
  | some found =>
    obtain ⟨v, hv, rfl⟩ := hb.reachable.indexed.vertex_of_find? hfind
    have hmem : v.id ∈ b.graph.ids := List.mem_of_getElem? (Graph.getElem?_ids hv)
    have hreach := hb.reachable.addEdge label index found .empty
    obtain ⟨e, heq⟩ | ⟨-, -, -, heq⟩ := b.graph.addEdge_eq label index found .empty
    · simp [hfind, heq] at h
    · simp only [hfind, heq] at h hreach
      rw [← Except.ok.inj h, ← hids, if_pos hmem]
      refine ⟨hreach, ?_, hb.nodup_ids, ?_⟩
      · rw [Graph.rows_register, hb.rows_eq]
      · rw [Graph.links_register, hb.links_eq, Graph.idAt_eq hv, Graph.idAt, hids, hsource]
        rfl

theorem shows_references {b b' : Builder} {rows : List Row} {links : List Link} {label : String}
    {source : ElementId} {targets : List ElementId} {index : VertexIndex}
    (hb : b.graph.Shows rows links)
    (hsource : (rows.map Row.id)[index.position.toNat]? = some source)
    (h : targets.foldlM (reference label index) b = .ok b') :
    b'.graph.Shows rows
      (links ++ (targets.filter (· ∈ rows.map Row.id)).map (⟨label, source, ·⟩)) := by
  -- the rows stay, the links grow by the references resolved so far
  refine foldlM_invariant (fun done b ↦ b.graph.Shows rows
    (links ++ (done.filter (· ∈ rows.map Row.id)).map (⟨label, source, ·⟩))) ?_ ?_ h
  · intro done target b b' hdone hstep
    have hnext := shows_reference hdone hsource hstep
    rw [List.append_assoc] at hnext
    rw [List.filter_append, List.map_append]
    by_cases htarget : target ∈ rows.map Row.id
    · have hkept : [target].filter (· ∈ rows.map Row.id) = [target] :=
        List.filter_cons_of_pos (decide_eq_true htarget)
      rw [if_pos htarget] at hnext
      rw [hkept]
      exact hnext
    · have hdropped : [target].filter (· ∈ rows.map Row.id) = [] :=
        List.filter_cons_of_neg (by simpa using htarget)
      rw [if_neg htarget] at hnext
      rw [hdropped]
      exact hnext
  · rw [List.filter_nil, List.map_nil, List.append_nil]
    exact hb

theorem shows_record {b b₁ b₂ b₃ : Builder} {rows : List Row} {links : List Link} (row : Row)
    {first second : List ElementId} {label₁ label₂ : String} {index : VertexIndex}
    (hb : b.graph.Shows rows links)
    (hvertex : b.vertex row.label row.properties row.id = .ok (index, b₁))
    (hfirst : first.foldlM (reference label₁ index) b₁ = .ok b₂)
    (hsecond : second.foldlM (reference label₂ index) b₂ = .ok b₃) :
    b₃.graph.Shows (rows ++ [row])
      (links ++ ((first.filter (· ∈ (rows ++ [row]).map Row.id)).map (⟨label₁, row.id, ·⟩)
        ++ (second.filter (· ∈ (rows ++ [row]).map Row.id)).map (⟨label₂, row.id, ·⟩))) := by
  obtain ⟨hshows, hsource⟩ := shows_vertex hb hvertex
  have hplace : ((rows ++ [row]).map Row.id)[index.position.toNat]? = some row.id := by
    rw [List.map_append]
    exact hsource
  rw [← List.append_assoc]
  exact shows_references (shows_references hshows hplace hfirst) hplace hsecond

end Builder

/-! ## Table by table -/

namespace Snapshot

/-- Which references of a record are kept depends on the tables that it can refer to. -/
theorem filter_agencyIds {s t : Snapshot} (h : s.agencies = t.agencies) (keys : List UInt64) :
    (keys.map agencyId).filter (· ∈ s.ids) = (keys.map agencyId).filter (· ∈ t.ids) := by
  refine List.filter_congr fun id hid ↦ ?_
  obtain ⟨key, -, rfl⟩ := List.mem_map.mp hid
  rw [decide_eq_decide, agencyId_mem_ids, agencyId_mem_ids, h]

theorem filter_categoryIds {s t : Snapshot} (h : s.categories = t.categories)
    (keys : List UInt64) :
    (keys.map categoryId).filter (· ∈ s.ids) = (keys.map categoryId).filter (· ∈ t.ids) := by
  refine List.filter_congr fun id hid ↦ ?_
  obtain ⟨key, -, rfl⟩ := List.mem_map.mp hid
  rw [decide_eq_decide, categoryId_mem_ids, categoryId_mem_ids, h]

end Snapshot

namespace Builder

variable {b b' : Builder} {s : Snapshot}

theorem shows_agency {r : AgencyRecord} {done : List AgencyRecord}
    (hb : b.graph.Shows { agencies := done : Snapshot }.rows []) (h : b.agency r = .ok b') :
    b'.graph.Shows { agencies := done ++ [r] : Snapshot }.rows [] := by
  obtain ⟨⟨index, b₁⟩, hvertex, h⟩ := bind_eq_ok.mp h
  rw [← Except.ok.inj h]
  have hshows := (shows_vertex hb hvertex).1
  simpa [Snapshot.rows, AgencyRecord.row] using hshows

theorem shows_category {r : CategoryRecord} {done : List CategoryRecord}
    (hb : b.graph.Shows { agencies := s.agencies, categories := done : Snapshot }.rows [])
    (h : b.category r = .ok b') :
    b'.graph.Shows { agencies := s.agencies, categories := done ++ [r] : Snapshot }.rows [] := by
  obtain ⟨⟨index, b₁⟩, hvertex, h⟩ := bind_eq_ok.mp h
  rw [← Except.ok.inj h]
  have hshows := (shows_vertex hb hvertex).1
  simpa [Snapshot.rows, CategoryRecord.row] using hshows

theorem shows_profile {r : ProfileRecord} {done : List ProfileRecord}
    (hb : b.graph.Shows { s with profiles := done, listings := [] : Snapshot }.rows
      (done.flatMap s.profileLinks)) (h : b.profile r = .ok b') :
    b'.graph.Shows { s with profiles := done ++ [r], listings := [] : Snapshot }.rows
      ((done ++ [r]).flatMap s.profileLinks) := by
  obtain ⟨⟨index, b₁⟩, hvertex, h⟩ := bind_eq_ok.mp h
  obtain ⟨b₂, horganizations, hstewarded⟩ := bind_eq_ok.mp h
  have hrows : { s with profiles := done, listings := [] : Snapshot }.rows ++ [r.row]
      = { s with profiles := done ++ [r], listings := [] : Snapshot }.rows := by
    simp [Snapshot.rows]
  -- profiles refer to agencies only, all of which are there already
  have hkept := Snapshot.filter_agencyIds
    (s := { s with profiles := done ++ [r], listings := [] }) (t := s) rfl
  have hshows := shows_record r.row hb hvertex horganizations hstewarded
  rw [hrows, ← Snapshot.ids, hkept, hkept] at hshows
  rw [List.flatMap_append, List.flatMap_singleton]
  exact hshows

theorem shows_listing {r : ListingRecord} {done : List ListingRecord} {links : List Link}
    (hb : b.graph.Shows { s with listings := done : Snapshot }.rows
      (links ++ done.flatMap s.listingLinks)) (h : b.listing r = .ok b') :
    b'.graph.Shows { s with listings := done ++ [r] : Snapshot }.rows
      (links ++ (done ++ [r]).flatMap s.listingLinks) := by
  obtain ⟨⟨index, b₁⟩, hvertex, h⟩ := bind_eq_ok.mp h
  obtain ⟨b₂, hcategories, hagency⟩ := bind_eq_ok.mp h
  have hrows : { s with listings := done : Snapshot }.rows ++ [r.row]
      = { s with listings := done ++ [r] : Snapshot }.rows := by
    simp [Snapshot.rows]
  have hkept₁ := Snapshot.filter_categoryIds (s := { s with listings := done ++ [r] }) (t := s) rfl
  have hkept₂ := Snapshot.filter_agencyIds (s := { s with listings := done ++ [r] }) (t := s) rfl
  have hshows := shows_record r.row hb hvertex hcategories hagency
  rw [hrows, ← Snapshot.ids, hkept₁, hkept₂, List.append_assoc] at hshows
  rw [List.flatMap_append, List.flatMap_singleton]
  exact hshows

theorem shows_bookmark {r : BookmarkRecord} {done : List BookmarkRecord} {links : List Link}
    (hb : b.graph.Shows s.rows (links ++ done.flatMap s.bookmarkLinks))
    (h : b.bookmark r = .ok b') :
    b'.graph.Shows s.rows (links ++ (done ++ [r]).flatMap s.bookmarkLinks) := by
  have hids : b.graph.ids = s.ids := congrArg (List.map _) hb.rows_eq
  rw [List.flatMap_append, List.flatMap_singleton, Snapshot.bookmarkLinks, ← List.append_assoc]
  rw [bookmark] at h
  cases hfind : b.graph.find? (profileId r.profile) with
  | none =>
    rw [hfind] at h
    have hmissing : profileId r.profile ∉ s.ids :=
      hids ▸ hb.reachable.indexed.find?_eq_none.mp hfind
    rw [if_neg fun hboth ↦ hmissing hboth.1, List.append_nil, ← Except.ok.inj h]
    exact hb
  | some index =>
    obtain ⟨v, hv, hid⟩ := hb.reachable.indexed.vertex_of_find? hfind
    have hplace := Graph.getElem?_ids hv
    rw [hids, hid] at hplace
    have hpresent : profileId r.profile ∈ s.ids := List.mem_of_getElem? hplace
    simp only [hfind] at h
    have hshows := shows_reference hb hplace h
    simp only [hpresent, true_and]
    exact hshows

end Builder

/-- **The graph of a snapshot** shows the rows and the links of the snapshot. -/
theorem Snapshot.shows_of_build {s : Snapshot} {g : Graph} {report : BuildReport}
    (h : s.buildWithReport = .ok (g, report)) : g.Shows s.rows s.links := by
  obtain ⟨b₁, hagencies, h⟩ := bind_eq_ok.mp h
  obtain ⟨b₂, hcategories, h⟩ := bind_eq_ok.mp h
  obtain ⟨b₃, hprofiles, h⟩ := bind_eq_ok.mp h
  obtain ⟨b₄, hlistings, h⟩ := bind_eq_ok.mp h
  obtain ⟨b₅, hbookmarks, h⟩ := bind_eq_ok.mp h
  obtain ⟨rfl, -⟩ := Prod.mk.inj (Except.ok.inj h)
  -- one fold per table, each starting from what the fold before it has established
  have h₁ := foldlM_invariant
    (fun done b ↦ b.graph.Shows { agencies := done : Snapshot }.rows [])
    (fun _ _ _ _ hb h ↦ Builder.shows_agency hb h) Builder.shows_empty hagencies
  have h₂ := foldlM_invariant
    (fun done b ↦ b.graph.Shows { agencies := s.agencies, categories := done : Snapshot }.rows [])
    (fun _ _ _ _ hb h ↦ Builder.shows_category hb h) h₁ hcategories
  have h₃ := foldlM_invariant
    (fun done b ↦ b.graph.Shows { s with profiles := done, listings := [] : Snapshot }.rows
      (done.flatMap s.profileLinks))
    (fun _ _ _ _ hb h ↦ Builder.shows_profile hb h) h₂ hprofiles
  have h₄ := foldlM_invariant
    (fun done b ↦ b.graph.Shows { s with listings := done : Snapshot }.rows
      (s.profiles.flatMap s.profileLinks ++ done.flatMap s.listingLinks))
    (fun _ _ _ _ hb h ↦ Builder.shows_listing hb h)
    (by rw [List.flatMap_nil, List.append_nil]; exact h₃) hlistings
  exact foldlM_invariant
    (fun done b ↦ b.graph.Shows s.rows (s.profiles.flatMap s.profileLinks
      ++ s.listings.flatMap s.listingLinks ++ done.flatMap s.bookmarkLinks))
    (fun _ _ _ _ hb h ↦ Builder.shows_bookmark hb h)
    (by rw [List.flatMap_nil, List.append_nil]; exact h₄) hbookmarks

end BookmarkGraph
