import BookmarkGraph.Proofs.Domain.Build
import BookmarkGraph.Proofs.Recommend.Batch
import BookmarkGraph.Proofs.Recommend.Offers

/-!
# No listing reaches a profile that may not see it

From the tables of a snapshot to the rows of a store a recommendation goes through the construction
of the graph, the catalog, a strategy, a ranking and the writes. `Snapshot.Permits` says on the
records alone what a profile may be shown, and `Batch.run_permitted` that a batch of the strategies
that come with the library stores nothing else.

The way there has one stop in the middle: `Graph.MayShow` says the same on the graph, in terms of
links between ids. Before it lies what the strategies do, after it what a snapshot stands for.
-/

namespace BookmarkGraph

open Domain

/-! ## On the graph -/

/-- The vertex of the profile and the vertex of the listing allow the listing to be shown. -/
def Graph.MayShow (g : Graph) (profile listing : ElementId) : Prop :=
  (∃ i v, g.vertex i = .ok v ∧ v.label = Label.profile ∧ v.id = profile) ∧
    ⟨Label.bookmarked, profile, listing⟩ ∉ g.links ∧
    ∃ j w, g.vertex j = .ok w ∧ w.label = Label.listing ∧ w.id = listing ∧
      w.isRecommendable = true ∧
      (w.flag "is_private" false = true → ∃ a, ⟨Label.inAgency, profile, a⟩ ∈ g.links ∧
        ⟨Label.inAgency, listing, a⟩ ∈ g.links)

section Strategies

variable {g : Graph} {catalog : Catalog}

theorem mayShow_of_offers (hg : g.WellFormed) (hc : catalog.Describes g)
    (hrespect : catalog.respectVisibility = true) {i : VertexIndex} {v : Vertex}
    (hv : g.vertex i = .ok v) (hlabel : v.label = Label.profile) {listing : ElementId}
    (h : catalog.Offers g i listing) : g.MayShow v.id listing := by
  obtain ⟨j, hvisible, rfl, hkept⟩ := h
  obtain ⟨w, hw, hlisting, hrecommendable, hprivate⟩ :=
    Catalog.visibleTo_respecting hc hrespect hvisible
  rw [Graph.mem_idAt_neighbours hg hv] at hkept
  refine ⟨⟨i, v, hv, hlabel, rfl⟩, hkept, j, w, hw, hlisting, (Graph.idAt_eq hw).symm,
    hrecommendable, fun hflag ↦ ?_⟩
  obtain ⟨a, hprofile, howner⟩ := hprivate hflag
  rw [Graph.mem_idAt_neighbours hg hv] at hprofile
  rw [Graph.mem_idAt_neighbours hg hw, ← Graph.idAt_eq hw] at howner
  exact ⟨a, hprofile, howner⟩

/-- Scoring all profiles of a graph one by one, each with nothing but what it is offered. -/
theorem shows_fill_of_offers (hg : g.WellFormed) (hc : catalog.Describes g)
    (hrespect : catalog.respectVisibility = true)
    {score : ElementId → Except GraphError ScoreTable} {profiles : List ElementId}
    (hprofiles : profileIds g = .ok profiles)
    (hscore : ∀ profile index table, g.find? profile = some index → score profile = .ok table →
      ∀ listing ∈ table.keys, catalog.Offers g index listing) :
    (Tally.empty.fill score profiles).Shows g.MayShow := by
  rw [profileIds_eq hg] at hprofiles
  rw [← Except.ok.inj hprofiles]
  refine Tally.shows_fill fun profile hprofile table htable listing hlisting ↦ ?_
  obtain ⟨i, hi, rfl⟩ := List.mem_map.mp hprofile
  obtain ⟨hi, hlabel⟩ := List.mem_filter.mp hi
  obtain ⟨v, hv⟩ := Graph.has_vertexIndices hg.vertices_le i hi
  rw [Graph.labelAt_eq hv, decide_eq_true_eq] at hlabel
  rw [Graph.idAt_eq hv] at htable ⊢
  have hfind := hg.find?_of_vertex hv
  exact mayShow_of_offers hg hc hrespect hv hlabel
    (hscore v.id i table hfind htable listing hlisting)

end Strategies

/-- A strategy that fills tables with nothing but what the graph allows to be shown. -/
def Strategy.Respects (strategy : Strategy) (g : Graph) : Prop :=
  ∀ scoring, strategy.initiate = .ok scoring → (scoring .empty).2.Shows g.MayShow

section Builtins

variable {context : Context}

theorem Collaborative.respects_strategy (hg : context.graph.WellFormed)
    (hrespect : context.config.respectVisibility = true) :
    (Collaborative.strategy context).Respects context.graph := by
  intro scoring h
  obtain ⟨profiles, hprofiles, h⟩ := bind_eq_ok.mp h
  obtain ⟨catalog, hcatalog, h⟩ := bind_eq_ok.mp h
  obtain ⟨hc, hflags⟩ := Catalog.describes_of_build hg hcatalog
  rw [← Except.ok.inj h]
  exact shows_fill_of_offers hg hc (hflags.trans hrespect) hprofiles
    fun _ _ _ hfind htable ↦ Collaborative.offers_of_scoreProfile hg hfind htable

theorem Popularity.respects_strategy (hg : context.graph.WellFormed)
    (hrespect : context.config.respectVisibility = true) :
    (Popularity.strategy context).Respects context.graph := by
  intro scoring h
  obtain ⟨profiles, hprofiles, h⟩ := bind_eq_ok.mp h
  obtain ⟨catalog, hcatalog, h⟩ := bind_eq_ok.mp h
  obtain ⟨ranked, hranked, h⟩ := bind_eq_ok.mp h
  obtain ⟨hc, hflags⟩ := Catalog.describes_of_build hg hcatalog
  rw [← Except.ok.inj h]
  exact shows_fill_of_offers hg hc (hflags.trans hrespect) hprofiles
    fun _ _ _ hfind htable ↦ Popularity.offers_of_scoreProfile hg hc hranked hfind htable

end Builtins

namespace Registry

theorem constructors_builtins :
    builtins.constructors
      = [(Collaborative.name, fun context ↦ .ok (Collaborative.strategy context)),
        (Popularity.name, fun context ↦ .ok (Popularity.strategy context))] := by
  have hafter : ¬ Popularity.name < Collaborative.name := by decide
  have hother : Popularity.name ≠ Collaborative.name := by decide
  simp only [builtins, register, empty, place, if_neg hafter, if_neg hother]

theorem create_builtins_eq (name : String) (context : Context) :
    builtins.create name context =
      if name = Collaborative.name then
        .ok (.start (Collaborative.strategy context) context.config)
      else if name = Popularity.name then
        .ok (.start (Popularity.strategy context) context.config)
      else .error (.unknownStrategy name) := by
  rw [create, find?, constructors_builtins, List.lookup_cons, List.lookup_cons, List.lookup_nil]
  by_cases hcollaborative : name = Collaborative.name
  · rw [if_pos hcollaborative, beq_iff_eq.mpr hcollaborative]
  · rw [if_neg hcollaborative, beq_eq_false_iff_ne.mpr hcollaborative]
    by_cases hpopularity : name = Popularity.name
    · rw [if_pos hpopularity, beq_iff_eq.mpr hpopularity]
    · rw [if_neg hpopularity, beq_eq_false_iff_ne.mpr hpopularity]

theorem create_builtins {name : String} {context : Context} {session : Session}
    (h : builtins.create name context = .ok session) :
    session = .start (Collaborative.strategy context) context.config ∨
      session = .start (Popularity.strategy context) context.config := by
  rw [create_builtins_eq] at h
  split at h
  · exact .inl (Except.ok.inj h).symm
  · split at h
    · exact .inr (Except.ok.inj h).symm
    · exact nomatch h

end Registry

/-! ## On the records -/

/-- What the records of a snapshot say about showing a listing to a profile. -/
structure Snapshot.Permits (s : Snapshot) (p : ProfileRecord) (l : ListingRecord) : Prop where
  /-- The listing is switched on. -/
  enabled : l.isEnabled = true
  /-- The listing does not count as deleted. -/
  not_deleted : l.isDeleted = false
  /-- The listing has passed its review. -/
  approved : l.approvalStatus = "APPROVED"
  /-- The profile keeps no bookmark of the listing. -/
  not_kept : ⟨p.id, l.id⟩ ∉ s.bookmarks
  /-- A private listing has an agency that exists and that the profile belongs to. -/
  in_agency : l.isPrivate = true →
    ∃ a, l.agency = some a ∧ (∃ r ∈ s.agencies, r.id = a) ∧ a ∈ p.organizations

/-- The ids of a profile and a listing of a snapshot that permits the one to see the other. -/
def Snapshot.MayShow (s : Snapshot) (profile listing : ElementId) : Prop :=
  ∃ p ∈ s.profiles, ∃ l ∈ s.listings,
    profile = profileId p.id ∧ listing = listingId l.id ∧ s.Permits p l

theorem ListingRecord.isRecommendable_iff {v : Vertex} {l : ListingRecord}
    (h : v.properties = l.properties) :
    v.isRecommendable = true ↔
      l.isEnabled = true ∧ l.isDeleted = false ∧ l.approvalStatus = "APPROVED" := by
  simp [Vertex.isRecommendable, Vertex.flag, h, properties, Properties.ofList,
    Properties.get?_insert, Value.asBool?, Value.asText?, and_assoc]

theorem ListingRecord.flag_private {v : Vertex} {l : ListingRecord}
    (h : v.properties = l.properties) : v.flag "is_private" false = l.isPrivate := by
  simp [Vertex.flag, h, properties, Properties.ofList, Properties.get?_insert, Value.asBool?]

namespace Snapshot

variable {s : Snapshot}

/-- What the graph of a snapshot allows, the snapshot permits. -/
theorem mayShow_of_graph {g : Graph} (hg : g.Shows s.rows s.links) {profile listing : ElementId}
    (h : g.MayShow profile listing) : s.MayShow profile listing := by
  obtain ⟨⟨i, v, hv, hprofile, rfl⟩, hkept, j, w, hw, hlisting, rfl, hflags, hprivate⟩ := h
  rw [hg.links_eq] at hkept hprivate
  obtain ⟨p, hp, hprow⟩ := exists_profile_of_row (hg.rows_eq ▸ Graph.row_mem hv) hprofile
  obtain ⟨l, hl, hlrow⟩ := exists_listing_of_row (hg.rows_eq ▸ Graph.row_mem hw) hlisting
  have hpid : v.id = profileId p.id := congrArg Row.id hprow.symm
  have hlid : w.id = listingId l.id := congrArg Row.id hlrow.symm
  have hproperties : w.properties = l.properties := congrArg Row.properties hlrow.symm
  rw [hpid, hlid] at hkept hprivate
  obtain ⟨henabled, hdeleted, hstatus⟩ := (ListingRecord.isRecommendable_iff hproperties).mp hflags
  refine ⟨p, hp, l, hl, hpid, hlid, henabled, hdeleted, hstatus, fun hmem ↦ hkept ?_,
    fun hflag ↦ ?_⟩
  · have hends : profileId p.id ∈ s.ids ∧ listingId l.id ∈ s.ids :=
      ⟨profileId_mem_ids.mpr ⟨p, hp, rfl⟩, listingId_mem_ids.mpr ⟨l, hl, rfl⟩⟩
    exact mem_links_bookmarked.mpr ⟨⟨p.id, l.id⟩, hmem, hends, rfl, rfl⟩
  · rw [ListingRecord.flag_private hproperties] at hprivate
    obtain ⟨a, hmember, howner⟩ := hprivate hflag
    obtain ⟨q, hq, key, hkey, hexists, hqid, rfl⟩ := mem_links_profile.mp hmember
    obtain ⟨m, hm, key', hkey', -, hmid, heq⟩ := mem_links_listing.mp howner
    -- the two links start at these records, as no other records have their ids
    obtain rfl := profile_inj hg.nodup_ids hq hp hqid
    obtain rfl := listing_inj hg.nodup_ids hm hl hmid
    obtain ⟨-, rfl⟩ := (rowId_inj rfl).mp heq
    exact ⟨key', hkey', agencyId_mem_ids.mp hexists, hkey⟩

end Snapshot

/-! ## From the tables to the store -/

/-- **No leak.** Where flags are respected, a batch of the strategies of the library over a snapshot
leaves in an empty store nothing but what the records permit: every stored listing is permitted to
its profile, no list names a listing twice, and none is longer than configured. -/
theorem Batch.run_permitted (config : Config) (s : Snapshot)
    (hrespect : config.respectVisibility = true) (profile : ElementId) :
    Sound s.MayShow config.topN.toNat profile
      ((run .builtins config s (.ofStore .empty none)).2.store.recommendationsFor profile) := by
  have hstart : (Sink.ofStore .empty none).Sound s.MayShow config.topN.toNat :=
    ⟨rfl, fun profile ↦ sound_nil profile⟩
  rw [run]
  -- a batch that stops before its first session has stored nothing
  split
  · exact hstart.stored profile
  · cases hbuild : s.buildWithReport with
    | error e => exact hstart.stored profile
    | ok built =>
      obtain ⟨g, report⟩ := built
      have hg := Snapshot.shows_of_build hbuild
      have hshows : ∀ strategy : Strategy, strategy.Respects g → ∀ scoring,
          strategy.initiate = .ok scoring → (scoring .empty).2.Shows s.MayShow :=
        fun strategy h scoring hinitiate profile table hget listing hlisting ↦
          Snapshot.mayShow_of_graph hg (h scoring hinitiate profile table hget listing hlisting)
      refine (sound_runAll (fun name session hcreate ↦ ?_) hstart).stored profile
      rcases Registry.create_builtins hcreate with rfl | rfl
      · exact ⟨rfl, hshows _ (Collaborative.respects_strategy hg.reachable.wellFormed hrespect)⟩
      · exact ⟨rfl, hshows _ (Popularity.respects_strategy hg.reachable.wellFormed hrespect)⟩

/-- Two profiles that keep a listing in common, of which one keeps more: a private listing of the
agency of the other, a private listing of an agency that does not exist, a listing that is not
approved, and a listing twice. -/
def Snapshot.market : Snapshot where
  agencies := [⟨1, "Ministry of Maps", "MoM"⟩]
  profiles := [{ id := 1, username := "ann", organizations := [1, 9] },
    { id := 2, username := "bob", stewardedOrganizations := [1] }]
  listings := [{ id := 1, title := "Atlas", isPrivate := true, agency := some 1 },
    { id := 2, title := "Compass" },
    { id := 3, title := "Draft", approvalStatus := "PENDING" },
    { id := 4, title := "Sextant", isPrivate := true, agency := some 9 }]
  bookmarks := [⟨1, 2⟩, ⟨2, 1⟩, ⟨2, 2⟩, ⟨2, 2⟩, ⟨2, 3⟩, ⟨2, 4⟩]

theorem Batch.run_permitted_market :
    let stored := (run .builtins {} .market (.ofStore .empty none)).2.store.recommendationsFor
      (profileId 1)
    ({} : Config).respectVisibility = true ∧ stored.map (·.listing) = [listingId 1] ∧
      Snapshot.market.MayShow (profileId 1) (listingId 1) := by
  intro stored
  have hsound := run_permitted {} .market rfl (profileId 1)
  have hstored : stored.map (·.listing) = [listingId 1] := by decide +kernel
  have hmem : listingId 1 ∈ stored.map (·.listing) := hstored ▸ List.mem_cons_self
  obtain ⟨entry, hentry, heq⟩ := List.mem_map.mp hmem
  exact ⟨rfl, hstored, heq ▸ hsound.shown entry hentry⟩

end BookmarkGraph
