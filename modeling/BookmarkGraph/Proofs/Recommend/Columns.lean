import BookmarkGraph.Proofs.Recommend.Evidence

/-!
# Which columns recommendations are made from

The graph of a snapshot holds everything that the tables say: names and titles, categories, who is a
steward. Nearly all of it is there for queries. `Snapshot.evidence` is what the strategies read of
it, and the lemmas about its four parts name the columns that it comes from. Whatever else two
snapshots say, `Batch.run_plain_congr` shows that batches of the library answer the same.

Categories and stewardships take up places between the vertices and edges that count, so the two
graphs agree in no index. This is of no concern here: evidence knows no places.
-/

namespace BookmarkGraph

open Domain

/-! ## The evidence in tables -/

def ListingRecord.facts (r : ListingRecord) : ListingFacts where
  id := listingId r.id
  recommendable := r.isEnabled && !r.isDeleted && r.approvalStatus = "APPROVED"
  isPrivate := r.isPrivate

theorem ListingRecord.facts_row (r : ListingRecord) : r.row.facts = r.facts := by
  have hrecommendable : r.row.vertex.isRecommendable = r.facts.recommendable := by
    rw [Bool.eq_iff_iff, isRecommendable_iff rfl]
    simp [facts, and_assoc]
  have hprivate : r.row.vertex.flag "is_private" false = r.isPrivate := flag_private rfl
  rw [Row.facts, hrecommendable, hprivate]
  rfl

namespace Snapshot

def evidence (s : Snapshot) : Evidence := .of s.rows s.links

/-- The links from an id to those of the given agencies that exist. -/
def membershipLinks (s : Snapshot) (id : ElementId) (agencies : List UInt64) : List Link :=
  ((agencies.map agencyId).filter (· ∈ s.ids)).map (⟨Label.inAgency, id, ·⟩)

theorem filter_rows_profile (s : Snapshot) :
    s.rows.filter (·.label = Label.profile) = s.profiles.map ProfileRecord.row := by
  simp [rows, List.filter_map, Function.comp_def, AgencyRecord.row, CategoryRecord.row,
    ProfileRecord.row, ListingRecord.row, Label.agency, Label.category, Label.profile,
    Label.listing]

theorem filter_rows_listing (s : Snapshot) :
    s.rows.filter (·.label = Label.listing) = s.listings.map ListingRecord.row := by
  simp [rows, List.filter_map, Function.comp_def, AgencyRecord.row, CategoryRecord.row,
    ProfileRecord.row, ListingRecord.row, Label.agency, Label.category, Label.profile,
    Label.listing]

theorem profiles_evidence {s : Snapshot} (hrows : s.rows.length < Graph.arenaCapacity) :
    s.evidence.profiles = s.profiles.map fun r ↦ profileId r.id := by
  change ((Graph.listed s.rows).filter _).map _ = _
  rw [Graph.listed_of_lt hrows, filter_rows_profile, List.map_map]
  rfl

theorem listings_evidence {s : Snapshot} (hrows : s.rows.length < Graph.arenaCapacity) :
    s.evidence.listings = s.listings.map ListingRecord.facts := by
  change ((Graph.listed s.rows).filter _).map _ = _
  rw [Graph.listed_of_lt hrows, filter_rows_listing, List.map_map]
  exact List.map_congr_left fun r _ ↦ r.facts_row

theorem memberships_evidence (s : Snapshot) :
    s.evidence.memberships = s.profiles.flatMap (fun r ↦
        s.membershipLinks (profileId r.id) r.organizations)
      ++ s.listings.flatMap fun r ↦ s.membershipLinks (listingId r.id) r.agency.toList := by
  have hprofile : ∀ r, (s.profileLinks r).filter (·.label = Label.inAgency)
      = s.membershipLinks (profileId r.id) r.organizations := by
    intro r
    simp [profileLinks, membershipLinks, List.filter_map, Function.comp_def, Label.inAgency,
      Label.stewardFor]
  have hlisting : ∀ r, (s.listingLinks r).filter (·.label = Label.inAgency)
      = s.membershipLinks (listingId r.id) r.agency.toList := by
    intro r
    simp [listingLinks, membershipLinks, List.filter_map, Function.comp_def, Label.inAgency,
      Label.listingCategory]
  have hbookmark : ∀ r, (s.bookmarkLinks r).filter (·.label = Label.inAgency) = [] := by
    intro r
    rw [bookmarkLinks]
    split <;> simp [Label.inAgency, Label.bookmarked]
  change s.links.filter _ = _
  rw [links, List.filter_append, List.filter_append, List.filter_flatMap, List.filter_flatMap,
    List.filter_flatMap, List.flatMap_eq_nil_iff.mpr fun r _ ↦ hbookmark r, List.append_nil]
  simp only [hprofile, hlisting]

theorem bookmarks_evidence (s : Snapshot) :
    s.evidence.bookmarks = s.bookmarks.flatMap s.bookmarkLinks := by
  have hprofile : ∀ r, (s.profileLinks r).filter (·.label = Label.bookmarked) = [] := by
    intro r
    simp [profileLinks, List.filter_map, Function.comp_def, Label.inAgency, Label.stewardFor,
      Label.bookmarked]
  have hlisting : ∀ r, (s.listingLinks r).filter (·.label = Label.bookmarked) = [] := by
    intro r
    simp [listingLinks, List.filter_map, Function.comp_def, Label.inAgency,
      Label.listingCategory, Label.bookmarked]
  have hbookmark : ∀ r, (s.bookmarkLinks r).filter (·.label = Label.bookmarked)
      = s.bookmarkLinks r := by
    intro r
    rw [bookmarkLinks]
    split <;> simp
  change s.links.filter _ = _
  rw [links, List.filter_append, List.filter_append, List.filter_flatMap, List.filter_flatMap,
    List.filter_flatMap, List.flatMap_eq_nil_iff.mpr fun r _ ↦ hprofile r,
    List.flatMap_eq_nil_iff.mpr fun r _ ↦ hlisting r, List.nil_append, List.nil_append]
  exact List.flatMap_congr fun r _ ↦ hbookmark r

/-- The graph of a snapshot holds the evidence of the snapshot. -/
theorem evidence_of_build {s : Snapshot} {g : Graph} {report : BuildReport}
    (h : s.buildWithReport = .ok (g, report)) : g.evidence = s.evidence :=
  (shows_of_build h).evidence_eq

end Snapshot

/-! ## Descriptive columns -/

/-- A profile without the columns that only describe it. -/
def ProfileRecord.plain (r : ProfileRecord) : ProfileRecord :=
  { r with username := "", role := none, stewardedOrganizations := [] }

def AgencyRecord.plain (r : AgencyRecord) : AgencyRecord := { r with title := "", shortName := "" }

/-- A listing without the columns that only describe it. -/
def ListingRecord.plain (r : ListingRecord) : ListingRecord :=
  { r with title := "", description := none, isFeatured := false, categories := [] }

namespace Snapshot

/-- A snapshot without descriptive columns and without categories. -/
def plain (s : Snapshot) : Snapshot where
  profiles := s.profiles.map ProfileRecord.plain
  agencies := s.agencies.map AgencyRecord.plain
  listings := s.listings.map ListingRecord.plain
  bookmarks := s.bookmarks

variable {s t : Snapshot}

theorem membershipLinks_plain (s : Snapshot) (id : ElementId) (agencies : List UInt64) :
    s.plain.membershipLinks id agencies = s.membershipLinks id agencies := by
  refine congrArg (List.map _) (List.filter_congr fun id hid ↦ ?_)
  obtain ⟨key, -, rfl⟩ := List.mem_map.mp hid
  rw [decide_eq_decide, agencyId_mem_ids, agencyId_mem_ids, plain]
  simp [AgencyRecord.plain]

theorem bookmarkLinks_plain (s : Snapshot) (r : BookmarkRecord) :
    s.plain.bookmarkLinks r = s.bookmarkLinks r := by
  have hprofile : profileId r.profile ∈ s.plain.ids ↔ profileId r.profile ∈ s.ids := by
    rw [profileId_mem_ids, profileId_mem_ids, plain]
    simp [ProfileRecord.plain]
  have hlisting : listingId r.listing ∈ s.plain.ids ↔ listingId r.listing ∈ s.ids := by
    rw [listingId_mem_ids, listingId_mem_ids, plain]
    simp [ListingRecord.plain]
  simp only [bookmarkLinks, hprofile, hlisting]

theorem length_rows_plain_le (s : Snapshot) : s.plain.rows.length ≤ s.rows.length := by
  simp only [rows, plain, List.length_append, List.length_map, List.length_nil]
  omega

theorem evidence_plain (hrows : s.rows.length < Graph.arenaCapacity) :
    s.plain.evidence = s.evidence := by
  have hplain := Nat.lt_of_le_of_lt s.length_rows_plain_le hrows
  refine Evidence.ext ?_ ?_ ?_ ?_
  · rw [profiles_evidence hplain, profiles_evidence hrows, plain, List.map_map]
    rfl
  · rw [listings_evidence hplain, listings_evidence hrows, plain, List.map_map]
    rfl
  · simp only [memberships_evidence, membershipLinks_plain]
    simp only [plain, List.flatMap_map]
    rfl
  · rw [bookmarks_evidence, bookmarks_evidence]
    exact List.flatMap_congr fun r _ ↦ s.bookmarkLinks_plain r

end Snapshot

/-- **Descriptive columns do not matter.** Batches of strategies of the library over two snapshots
that build, and that differ in nothing but descriptive columns and categories, report the same
summaries and leave the same store behind, as long as neither arena of vertices is full. -/
theorem Batch.run_plain_congr {s t : Snapshot} {g g' : Graph} {build build' : BuildReport}
    (hs : s.buildWithReport = .ok (g, build)) (ht : t.buildWithReport = .ok (g', build'))
    (hsrows : s.rows.length < Graph.arenaCapacity) (htrows : t.rows.length < Graph.arenaCapacity)
    (hplain : s.plain = t.plain) {config : Config}
    (hnames : ∀ name ∈ config.strategies, name ∈ Registry.builtins.names) (store : Store) :
    ∃ summaries sink,
      run .builtins config s (.ofStore store none) = (.ok ⟨build, summaries⟩, sink) ∧
      run .builtins config t (.ofStore store none) = (.ok ⟨build', summaries⟩, sink) := by
  have hevidence : g'.evidence = g.evidence := by
    rw [Snapshot.evidence_of_build hs, Snapshot.evidence_of_build ht,
      ← Snapshot.evidence_plain hsrows, hplain, Snapshot.evidence_plain htrows]
  have hfirst := run_builtins hs hnames (.ofStore store none)
  have hsecond := run_builtins ht hnames (.ofStore store none)
  rw [Sink.writeAll_open rfl] at hfirst
  rw [hevidence, Sink.writeAll_open rfl] at hsecond
  exact ⟨_, _, hfirst, hsecond⟩

/-- The same market in other words: with roles, categories and featured listings, and with other
stewards. -/
def Snapshot.decorated : Snapshot where
  agencies := [⟨1, "Map Office", ""⟩]
  categories := [⟨1, "Maps"⟩, ⟨2, "Tools"⟩]
  profiles := [⟨1, "anna", some "ADMIN", [1, 9], [9, 1]⟩, { id := 2, username := "bob" }]
  listings := [
    { id := 1, title := "Atlas", isPrivate := true, categories := [1], agency := some 1 },
    { id := 2, title := "Compass", isFeatured := true, categories := [2, 1, 3] },
    { id := 3, title := "Untitled", approvalStatus := "PENDING" },
    { id := 4, title := "Sextant", description := some "", isPrivate := true, agency := some 9 }]
  bookmarks := [⟨1, 2⟩, ⟨2, 1⟩, ⟨2, 2⟩, ⟨2, 2⟩, ⟨2, 3⟩, ⟨2, 4⟩]

theorem Batch.run_plain_congr_market :
    Snapshot.market.plain = Snapshot.decorated.plain ∧
    ∃ summaries sink,
      run .builtins {} .market (.ofStore .empty none) = (.ok ⟨⟨7, 9, 2⟩, summaries⟩, sink) ∧
      run .builtins {} .decorated (.ofStore .empty none) = (.ok ⟨⟨9, 12, 4⟩, summaries⟩, sink) ∧
      sink.store.contents = [⟨profileId 1, [⟨listingId 1, .one⟩]⟩] := by
  have hplain : Snapshot.market.plain = Snapshot.decorated.plain := by decide
  have hmarket : Snapshot.market.buildWithReport.map (·.2) = .ok ⟨7, 9, 2⟩ := by decide +kernel
  have hdecorated : Snapshot.decorated.buildWithReport.map (·.2) = .ok ⟨9, 12, 4⟩ := by
    decide +kernel
  obtain ⟨⟨g, build⟩, hs, rfl⟩ := map_eq_ok.mp hmarket
  obtain ⟨⟨g', build'⟩, ht, rfl⟩ := map_eq_ok.mp hdecorated
  have hnames : ∀ name ∈ ({} : Config).strategies, name ∈ Registry.builtins.names := by decide
  have hstored : (run .builtins {} .market (.ofStore .empty none)).2.store.contents
      = [⟨profileId 1, [⟨listingId 1, .one⟩]⟩] := by decide +kernel
  obtain ⟨summaries, sink, hfirst, hsecond⟩ :=
    run_plain_congr hs ht (by decide) (by decide) hplain hnames .empty
  rw [hfirst] at hstored
  exact ⟨hplain, summaries, sink, hfirst, hsecond, hstored⟩

end BookmarkGraph
