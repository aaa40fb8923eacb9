import BookmarkGraph.Proofs.Domain.Construction
import BookmarkGraph.Proofs.Recommend.Columns
import Mathlib.Data.List.Flatten

/-!
# Which bookmarks matter

A bookmark that is made twice is two edges, and a walk along them comes by everything twice. The
strategies look at what is met first only, so `Snapshot.recommend_eraseDups` says that repetitions
among the bookmarks change nothing for anybody.

Collaborative filtering goes two steps further from a profile and no more: to those who keep one of
its listings, and to what they keep. `Snapshot.collaborative_local` says that the bookmarks of
everybody else can be changed at will without a change in what is recommended to the profile.

Both are shown on the evidence, where bookmarks are a list of links. For repetitions the first
occurrences in every list that is derived from the links stay the same. For locality it is enough to
leave out the bookmarks that are too far away, since two snapshots that agree nearby are then left
with the same bookmarks.
-/

namespace BookmarkGraph

open Domain

/-! ## Walks along links -/

theorem flatMap_filter {α β : Type} (p : α → Bool) (f : α → List β) (xs : List α) :
    (xs.filter p).flatMap f = xs.flatMap fun x ↦ if p x then f x else [] := by
  induction xs with
  | nil => rfl
  | cons x xs ih =>
    rw [List.flatMap_cons, List.filter_cons]
    by_cases h : p x = true
    · rw [if_pos h, if_pos h, List.flatMap_cons, ih]
    · rw [if_neg h, if_neg h, List.nil_append, ih]

namespace Link

variable {which : EdgeEnd} {id : ElementId} {links links' : List Link}

theorem mem_across {other : ElementId} :
    other ∈ across which id links ↔
      ∃ link ∈ links, link.idAt which = id ∧ link.idAt which.other = other := by
  simp [across, and_assoc]

theorem eraseDups_across (h : links.eraseDups = links'.eraseDups) :
    (across which id links).eraseDups = (across which id links').eraseDups := by
  have hfilter : (links.filter (·.idAt which = id)).eraseDups
      = (links'.filter (·.idAt which = id)).eraseDups := by
    rw [eraseDups_filter, h, eraseDups_filter]
  rw [across, across, List.map_eq_flatMap, List.map_eq_flatMap]
  exact eraseDups_flatMap hfilter fun _ ↦ rfl

/-- Links that do not start at an id can be left out of a walk from there. -/
theorem across_filter {p : Link → Bool}
    (h : ∀ link ∈ links, link.idAt which = id → p link = true) :
    across which id (links.filter p) = across which id links := by
  rw [across, List.filter_filter, across]
  refine congrArg (List.map _) (List.filter_congr fun link hlink ↦ ?_)
  by_cases hid : link.idAt which = id
  · rw [h link hlink hid, Bool.and_true]
  · rw [decide_eq_false hid, Bool.false_and]

end Link

/-! ## Evidence -/

namespace Evidence

variable {e : Evidence}

/-- Evidence with other bookmarks. -/
def withBookmarks (e : Evidence) (links : List Link) : Evidence := { e with bookmarks := links }

/-! ### Repetitions -/

section Repetitions

variable {links : List Link} (h : links.eraseDups = e.bookmarks.eraseDups)

include h

theorem eraseDups_kept (profile : ElementId) :
    ((e.withBookmarks links).kept profile).eraseDups = (e.kept profile).eraseDups :=
  Link.eraseDups_across h

theorem eraseDups_keepers (listing : ElementId) :
    ((e.withBookmarks links).keepers listing).eraseDups = (e.keepers listing).eraseDups :=
  Link.eraseDups_across h

theorem votes_congr (profile : ElementId) :
    (e.withBookmarks links).votes profile = e.votes profile := by
  have hsimilar : (e.withBookmarks links).similar profile = e.similar profile := by
    rw [similar, similar, eraseDups_flatMap (eraseDups_kept h profile) (eraseDups_keepers h)]
  have hown : ∀ id, id ∈ (e.withBookmarks links).kept profile ↔ id ∈ e.kept profile :=
    fun id ↦ mem_congr_of_eraseDups (eraseDups_kept h profile)
  rw [votes, votes, hsimilar]
  simp only [hown, eraseDups_kept h]

theorem keeperCount_congr (listing : ElementId) :
    (e.withBookmarks links).keeperCount listing = e.keeperCount listing := by
  rw [keeperCount, eraseDups_keepers h, keeperCount]

theorem table_congr (config : Config) (name : String) :
    (e.withBookmarks links).table config name = e.table config name := by
  have hcollaborative : (e.withBookmarks links).collaborative config = e.collaborative config := by
    funext profile
    rw [collaborative, votes_congr h, collaborative]
    rfl
  have hpopularity : (e.withBookmarks links).popularity config = e.popularity config := by
    funext profile
    have hpopular : (e.withBookmarks links).popular = e.popular := by
      simp only [popular, keeperCount_congr h]
      rfl
    have hown : ∀ id, ((e.withBookmarks links).kept profile).contains id
        = (e.kept profile).contains id := by
      intro id
      rw [Bool.eq_iff_iff, List.contains_iff_mem, List.contains_iff_mem]
      exact mem_congr_of_eraseDups (eraseDups_kept h profile)
    simp only [popularity, hpopular, hown]
    rfl
  rw [table, table, hcollaborative, hpopularity]

theorem session_congr (config : Config) (name : String) :
    (e.withBookmarks links).session config name = e.session config name := by
  rw [session, table_congr h, session]
  rfl

end Repetitions

/-! ### Distance -/

/-- The link is a bookmark of the profile or of someone who keeps something in common with it. -/
def Near (e : Evidence) (profile : ElementId) (link : Link) : Prop :=
  link.source = profile ∨ link.source ∈ (e.kept profile).flatMap e.keepers

instance (e : Evidence) (profile : ElementId) : DecidablePred (e.Near profile) :=
  fun _ ↦ instDecidableOr

/-- The evidence without the bookmarks that are too far away from a profile. -/
def around (e : Evidence) (profile : ElementId) : Evidence :=
  e.withBookmarks (e.bookmarks.filter (e.Near profile ·))

theorem kept_around {profile other : ElementId}
    (h : other = profile ∨ other ∈ (e.kept profile).flatMap e.keepers) :
    (e.around profile).kept other = e.kept other := by
  refine Link.across_filter fun link _ hsource ↦ decide_eq_true ?_
  have hother : link.source = other := hsource
  rw [Near, hother]
  exact h

theorem keepers_around {profile listing : ElementId} (h : listing ∈ e.kept profile) :
    (e.around profile).keepers listing = e.keepers listing := by
  refine Link.across_filter fun link hlink htarget ↦ decide_eq_true (.inr ?_)
  exact List.mem_flatMap.mpr ⟨listing, h, Link.mem_across.mpr ⟨link, hlink, htarget, rfl⟩⟩

/-- What is too far away from a profile has no influence on its scores. -/
theorem collaborative_around (e : Evidence) (config : Config) (profile : ElementId) :
    (e.around profile).collaborative config profile = e.collaborative config profile := by
  have hown : (e.around profile).kept profile = e.kept profile := kept_around (.inl rfl)
  have hsimilar : (e.around profile).similar profile = e.similar profile := by
    rw [similar, hown, List.flatMap_congr fun listing hlisting ↦ keepers_around hlisting, similar]
  have hvotes : (e.around profile).votes profile = e.votes profile := by
    rw [votes, votes, hsimilar, hown]
    refine List.flatMap_congr fun other hother ↦ ?_
    rw [kept_around (.inr (List.mem_eraseDups.mp (List.mem_filter.mp hother).1))]
  rw [collaborative, hvotes, collaborative]
  rfl

end Evidence

/-! ## Snapshots with other bookmarks -/

namespace Builder

variable {b : Builder} {s : Snapshot} {links : List Link}

/-- A bookmark finds its place as long as there is room for its link. -/
theorem exists_bookmark (hb : b.graph.Shows s.rows links) (r : BookmarkRecord)
    (hroom : (links ++ s.bookmarkLinks r).length ≤ Graph.arenaCapacity) :
    ∃ b', b.bookmark r = .ok b' := by
  have hg := hb.reachable.wellFormed
  have hids : b.graph.ids = s.ids := congrArg (List.map _) hb.rows_eq
  rw [bookmark]
  cases hprofile : b.graph.find? (profileId r.profile) with
  | none => exact ⟨b.skip, rfl⟩
  | some source =>
    cases hlisting : b.graph.find? (listingId r.listing) with
    | none =>
      refine ⟨b.skip, ?_⟩
      simp only [reference, hlisting]
    | some target =>
      obtain ⟨v, hv, hvid⟩ := hg.vertex_of_find? hprofile
      obtain ⟨w, hw, hwid⟩ := hg.vertex_of_find? hlisting
      have hends : profileId r.profile ∈ s.ids ∧ listingId r.listing ∈ s.ids :=
        ⟨hids ▸ hvid ▸ Graph.mem_ids hv, hids ▸ hwid ▸ Graph.mem_ids hw⟩
      have hedges : links.length = b.graph.edges.size := by
        rw [← hb.links_eq, Graph.length_links]
      rw [Snapshot.bookmarkLinks, if_pos hends, List.length_append, hedges] at hroom
      exact ⟨_, (reference_of_find? Label.bookmarked hlisting (Graph.position_lt hv)
        (Graph.position_lt hw)).trans (if_pos hroom)⟩

theorem exists_bookmarks (hb : b.graph.Shows s.rows links) (records : List BookmarkRecord)
    (hroom : (links ++ records.flatMap s.bookmarkLinks).length ≤ Graph.arenaCapacity) :
    ∃ b', records.foldlM bookmark b = .ok b' := by
  induction records generalizing b links with
  | nil => exact ⟨b, rfl⟩
  | cons r rest ih =>
    rw [List.flatMap_cons, ← List.append_assoc] at hroom
    have hfirst : (links ++ s.bookmarkLinks r).length ≤ Graph.arenaCapacity := by
      rw [List.length_append] at hroom
      omega
    obtain ⟨b', hb'⟩ := exists_bookmark hb r hfirst
    have hstart : b.graph.Shows s.rows (links ++ [].flatMap s.bookmarkLinks) := by
      rw [List.flatMap_nil, List.append_nil]
      exact hb
    have hnext := shows_bookmark hstart hb'
    rw [List.nil_append, List.flatMap_singleton] at hnext
    obtain ⟨b'', hb''⟩ := ih hnext hroom
    exact ⟨b'', by rw [List.foldlM_cons, hb', ok_bind, hb'']⟩

end Builder

namespace Snapshot

/-- The snapshot with another table of bookmarks. -/
def withBookmarks (s : Snapshot) (bookmarks : List BookmarkRecord) : Snapshot :=
  { s with bookmarks }

theorem evidence_withBookmarks (s : Snapshot) (bookmarks : List BookmarkRecord) :
    (s.withBookmarks bookmarks).evidence
      = s.evidence.withBookmarks (bookmarks.flatMap s.bookmarkLinks) := by
  refine Evidence.ext rfl rfl ?_ (bookmarks_evidence _)
  exact (memberships_evidence _).trans (memberships_evidence s).symm

theorem exists_build_withBookmarks {s : Snapshot} {g : Graph} {report : BuildReport}
    (h : s.buildWithReport = .ok (g, report)) {bookmarks : List BookmarkRecord}
    (hfewer : bookmarks.Sublist s.bookmarks) :
    ∃ g' report', (s.withBookmarks bookmarks).buildWithReport = .ok (g', report') := by
  have hlinks := (shows_of_build h).links_eq
  have hroom := (shows_of_build h).reachable.wellFormed.edges_le
  obtain ⟨b₁, hagencies, h⟩ := bind_eq_ok.mp h
  obtain ⟨b₂, hcategories, h⟩ := bind_eq_ok.mp h
  obtain ⟨b₃, hprofiles, h⟩ := bind_eq_ok.mp h
  obtain ⟨b₄, hlistings, h⟩ := bind_eq_ok.mp h
  have hbuild : ∀ bookmarks b₅, bookmarks.foldlM Builder.bookmark b₄ = .ok b₅ →
      (s.withBookmarks bookmarks).buildWithReport = .ok (b₅.graph, b₅.report) := by
    intro bookmarks b₅ hbookmarks
    refine bind_eq_ok.mpr ⟨b₁, hagencies, bind_eq_ok.mpr ⟨b₂, hcategories, ?_⟩⟩
    refine bind_eq_ok.mpr ⟨b₃, hprofiles, bind_eq_ok.mpr ⟨b₄, hlistings, ?_⟩⟩
    exact bind_eq_ok.mpr ⟨b₅, hbookmarks, rfl⟩
  -- the other tables alone leave room for all bookmarks, so also for some of them
  have hshows := shows_of_build (hbuild [] b₄ rfl)
  have hfits : ((s.withBookmarks []).links ++ bookmarks.flatMap s.bookmarkLinks).length
      ≤ Graph.arenaCapacity := by
    have hlength := (hfewer.flatMap s.bookmarkLinks).length_le
    have hall : s.links = (s.withBookmarks []).links ++ s.bookmarks.flatMap s.bookmarkLinks := by
      rw [links, links, withBookmarks, List.flatMap_nil, List.append_nil]
      rfl
    rw [← Graph.length_links, hlinks, hall, List.length_append] at hroom
    rw [List.length_append]
    omega
  obtain ⟨b₅, hb₅⟩ := Builder.exists_bookmarks hshows bookmarks hfits
  exact ⟨b₅.graph, b₅.report, hbuild bookmarks b₅ hb₅⟩

/-! ## Repeated bookmarks -/

/-- **Repeated bookmarks do not matter.** If a snapshot builds, so does the snapshot without the
bookmarks that repeat an earlier one. With all settings, either strategy of the library then ranks
the same lists on both graphs, with the same scores and in the same order, and leaves the same
store behind. -/
theorem recommend_eraseDups {s : Snapshot} {g : Graph} {report : BuildReport}
    (h : s.buildWithReport = .ok (g, report)) :
    ∃ g' report', (s.withBookmarks s.bookmarks.eraseDups).buildWithReport = .ok (g', report') ∧
      ∀ config, ∀ name ∈ Registry.builtins.names, ∃ session session',
        Registry.builtins.create name ⟨g, config⟩ = .ok session ∧
        Registry.builtins.create name ⟨g', config⟩ = .ok session' ∧
        ∀ store, ∃ summary t t' sink,
          session.recommend (.ofStore store none) = (.ok summary, t, sink) ∧
          session'.recommend (.ofStore store none) = (.ok summary, t', sink) ∧
          t.ranked = t'.ranked := by
  obtain ⟨g', report', h'⟩ := exists_build_withBookmarks h (eraseDups_sublist s.bookmarks)
  refine ⟨g', report', h', fun config name hname ↦ ?_⟩
  have hfirst : (s.bookmarks.eraseDups.flatMap s.bookmarkLinks).eraseDups
      = s.evidence.bookmarks.eraseDups := by
    rw [bookmarks_evidence, eraseDups_flatMap_eraseDups]
  have hsession : g'.evidence.session config name = g.evidence.session config name := by
    rw [evidence_of_build h, evidence_of_build h', evidence_withBookmarks,
      Evidence.session_congr hfirst]
  refine ⟨g.evidence.session config name, g'.evidence.session config name,
    Registry.create_builtins_of_mem (shows_of_build h).reachable config hname,
    Registry.create_builtins_of_mem (shows_of_build h').reachable config hname, fun store ↦ ?_⟩
  have hrun := g.evidence.recommend_session config name (.ofStore store none)
  rw [Sink.writeAll_open rfl] at hrun
  rw [hsession]
  exact ⟨_, _, _, _, hrun, hrun, rfl⟩

/-- Three profiles that make bookmarks more than once. -/
def eager : Snapshot where
  profiles := [{ id := 1, username := "ann" }, { id := 2, username := "bob" },
    { id := 3, username := "eve" }]
  listings := [{ id := 1, title := "Atlas" }, { id := 2, title := "Compass" }]
  bookmarks := [⟨1, 1⟩, ⟨2, 1⟩, ⟨1, 1⟩, ⟨2, 2⟩, ⟨2, 2⟩, ⟨3, 1⟩, ⟨2, 1⟩, ⟨3, 2⟩]

theorem recommend_eraseDups_eager :
    ∃ g g', eager.buildWithReport = .ok (g, ⟨5, 8, 0⟩) ∧
      (eager.withBookmarks [⟨1, 1⟩, ⟨2, 1⟩, ⟨2, 2⟩, ⟨3, 1⟩, ⟨3, 2⟩]).buildWithReport
        = .ok (g', ⟨5, 5, 0⟩) ∧
      ∃ session session', Registry.builtins.create Collaborative.name ⟨g, {}⟩ = .ok session ∧
        Registry.builtins.create Collaborative.name ⟨g', {}⟩ = .ok session' ∧
        ∃ summary t t' sink,
          session.recommend (.ofStore .empty none) = (.ok summary, t, sink) ∧
          session'.recommend (.ofStore .empty none) = (.ok summary, t', sink) ∧
          t.ranked = t'.ranked ∧
          sink.store.contents = [⟨profileId 1, [⟨listingId 2, .ofNat 2⟩]⟩] := by
  have hreport : eager.buildWithReport.map (·.2) = .ok ⟨5, 8, 0⟩ := by decide +kernel
  have hreport' : (eager.withBookmarks eager.bookmarks.eraseDups).buildWithReport.map (·.2)
      = .ok ⟨5, 5, 0⟩ := by decide +kernel
  have hstored : (eager.buildWithReport >>= fun built ↦
      (Registry.builtins.create Collaborative.name ⟨built.1, {}⟩).map fun session ↦
        (session.recommend (.ofStore .empty none)).2.2.store.contents)
      = .ok [⟨profileId 1, [⟨listingId 2, .ofNat 2⟩]⟩] := by decide +kernel
  obtain ⟨⟨g, report⟩, hbuild, rfl⟩ := map_eq_ok.mp hreport
  obtain ⟨g', report', hbuild', hsame⟩ := recommend_eraseDups hbuild
  rw [hbuild'] at hreport'
  obtain rfl := Except.ok.inj hreport'
  obtain ⟨session, session', hcreate, hcreate', hrecommend⟩ :=
    hsame {} Collaborative.name (by decide)
  obtain ⟨summary, t, t', sink, hrun, hrun', hranked⟩ := hrecommend .empty
  rw [hbuild, ok_bind, hcreate] at hstored
  have hcontents : (session.recommend (.ofStore .empty none)).2.2.store.contents = _ :=
    Except.ok.inj hstored
  rw [hrun] at hcontents
  exact ⟨g, g', hbuild, hbuild', session, session', hcreate, hcreate', summary, t, t', sink, hrun,
    hrun', hranked, hcontents⟩

/-! ## Bookmarks that are too far away -/

/-- Two profiles, given by their keys, keep a listing in common. A listing that does not exist does
not count. -/
def Shares (s : Snapshot) (p q : UInt64) : Prop :=
  ∃ l ∈ s.listings, ⟨p, l.id⟩ ∈ s.bookmarks ∧ ⟨q, l.id⟩ ∈ s.bookmarks

instance (s : Snapshot) (p q : UInt64) : Decidable (s.Shares p q) := List.decidableBEx _ _

/-- The bookmarks of a profile and of those who keep a listing in common with it. -/
def bookmarksAround (s : Snapshot) (p : UInt64) : List BookmarkRecord :=
  s.bookmarks.filter fun r ↦ r.profile = p ∨ s.Shares p r.profile

/-- Between records that exist, keeping something in common is the same for tables and links. -/
theorem mem_flatMap_keepers {s : Snapshot} {p q : UInt64} (hp : profileId p ∈ s.ids)
    (hq : profileId q ∈ s.ids) :
    profileId q ∈ (s.evidence.kept (profileId p)).flatMap s.evidence.keepers ↔ s.Shares p q := by
  have hlink : ∀ {link}, link ∈ s.evidence.bookmarks ↔
      ∃ r ∈ s.bookmarks, (profileId r.profile ∈ s.ids ∧ listingId r.listing ∈ s.ids) ∧
        ⟨Label.bookmarked, profileId r.profile, listingId r.listing⟩ = link := by
    intro link
    simp only [bookmarks_evidence, List.mem_flatMap, mem_bookmarkLinks]
  rw [List.mem_flatMap]
  constructor
  · rintro ⟨listing, hkept, hkeeper⟩
    obtain ⟨link, hmem, hsource, rfl⟩ := Link.mem_across.mp hkept
    obtain ⟨⟨p', l⟩, hr, ⟨-, hl⟩, rfl⟩ := hlink.mp hmem
    obtain ⟨link', hmem', htarget, hq'⟩ := Link.mem_across.mp hkeeper
    obtain ⟨⟨q', l'⟩, hr', -, rfl⟩ := hlink.mp hmem'
    obtain ⟨-, rfl⟩ := (rowId_inj rfl).mp hsource
    obtain ⟨-, rfl⟩ := (rowId_inj rfl).mp htarget
    obtain ⟨-, rfl⟩ := (rowId_inj rfl).mp hq'
    obtain ⟨record, hrecord, rfl⟩ := listingId_mem_ids.mp hl
    exact ⟨record, hrecord, hr, hr'⟩
  · rintro ⟨l, hl, hr, hr'⟩
    have hlisting : listingId l.id ∈ s.ids := listingId_mem_ids.mpr ⟨l, hl, rfl⟩
    exact ⟨listingId l.id,
      Link.mem_across.mpr ⟨_, hlink.mpr ⟨_, hr, ⟨hp, hlisting⟩, rfl⟩, rfl, rfl⟩,
      Link.mem_across.mpr ⟨_, hlink.mpr ⟨_, hr', ⟨hq, hlisting⟩, rfl⟩, rfl, rfl⟩⟩

theorem evidence_around {s : Snapshot} {p : ProfileRecord} (hp : p ∈ s.profiles) :
    s.evidence.around (profileId p.id)
      = (s.withBookmarks (s.bookmarksAround p.id)).evidence := by
  have hid : profileId p.id ∈ s.ids := profileId_mem_ids.mpr ⟨p, hp, rfl⟩
  have hnear : ∀ r, (s.bookmarkLinks r).filter (s.evidence.Near (profileId p.id) ·)
      = if r.profile = p.id ∨ s.Shares p.id r.profile then s.bookmarkLinks r else [] := by
    intro r
    rw [bookmarkLinks]
    split
    · rename_i hends
      have hiff : s.evidence.Near (profileId p.id)
          ⟨Label.bookmarked, profileId r.profile, listingId r.listing⟩ ↔
            r.profile = p.id ∨ s.Shares p.id r.profile := by
        rw [Evidence.Near, mem_flatMap_keepers hid hends.1]
        refine or_congr_left ⟨fun heq ↦ ((rowId_inj rfl).mp heq).2, fun heq ↦ ?_⟩
        rw [heq]
      rw [List.filter_singleton, decide_eq_decide.mpr hiff, Bool.cond_decide]
    · rw [List.filter_nil, ite_self]
  rw [evidence_withBookmarks, Evidence.around, bookmarks_evidence, List.filter_flatMap,
    bookmarksAround, flatMap_filter]
  simp only [hnear, decide_eq_true_eq]

/-- **Locality.** Two snapshots that build, with the same profiles, agencies, categories and
listings, may differ in the bookmarks of everyone who keeps nothing in common with a profile. As
long as they agree on the others, collaborative filtering ranks the same list for the profile on
both graphs, with all settings, and leaves it with the same list in a store. -/
theorem collaborative_local {s t : Snapshot} {g g' : Graph} {report report' : BuildReport}
    (hs : s.buildWithReport = .ok (g, report)) (ht : t.buildWithReport = .ok (g', report'))
    (hprofiles : s.profiles = t.profiles) (hagencies : s.agencies = t.agencies)
    (hcategories : s.categories = t.categories) (hlistings : s.listings = t.listings)
    {p : ProfileRecord} (hp : p ∈ s.profiles)
    (haround : s.bookmarksAround p.id = t.bookmarksAround p.id) (config : Config)
    (store : Store) :
    ∃ summary u sink summary' u' sink',
      (Session.start (Collaborative.strategy ⟨g, config⟩) config).recommend (.ofStore store none)
        = (.ok summary, u, sink) ∧
      (Session.start (Collaborative.strategy ⟨g', config⟩) config).recommend (.ofStore store none)
        = (.ok summary', u', sink') ∧
      u.ranking? (profileId p.id) = u'.ranking? (profileId p.id) ∧
      (s.rows.length < Graph.arenaCapacity → (u.ranking? (profileId p.id)).isSome) ∧
      sink.store.recommendationsFor (profileId p.id)
        = sink'.store.recommendationsFor (profileId p.id) := by
  have hnearby : s.withBookmarks (s.bookmarksAround p.id)
      = t.withBookmarks (t.bookmarksAround p.id) := by
    rw [haround, withBookmarks, withBookmarks, hprofiles, hagencies, hcategories, hlistings]
  have htable : g.evidence.table config Collaborative.name (profileId p.id)
      = g'.evidence.table config Collaborative.name (profileId p.id) := by
    rw [Evidence.table, Evidence.table, if_pos rfl, if_pos rfl, evidence_of_build hs,
      evidence_of_build ht, ← Evidence.collaborative_around s.evidence, evidence_around hp,
      hnearby, ← evidence_around (hprofiles ▸ hp), Evidence.collaborative_around]
  have hrows : s.rows = t.rows := by rw [rows, rows, hprofiles, hagencies, hcategories, hlistings]
  have heveryone : g.evidence.profiles = g'.evidence.profiles := by
    rw [evidence_of_build hs, evidence_of_build ht, evidence, evidence, hrows]
    rfl
  have hranking : (g.evidence.finished config Collaborative.name).ranking? (profileId p.id)
      = (g'.evidence.finished config Collaborative.name).ranking? (profileId p.id) := by
    rw [Evidence.ranking?_finished, Evidence.ranking?_finished, htable, heveryone]
  have hfirst := g.evidence.recommend_session config Collaborative.name (.ofStore store none)
  have hsecond := g'.evidence.recommend_session config Collaborative.name (.ofStore store none)
  rw [Sink.writeAll_open rfl, ← (shows_of_build hs).reachable.start_collaborative] at hfirst
  rw [Sink.writeAll_open rfl, ← (shows_of_build ht).reachable.start_collaborative] at hsecond
  refine ⟨_, _, _, _, _, _, hfirst, hsecond, hranking, fun hroom ↦ ?_, ?_⟩
  · have hmem : profileId p.id ∈ g.evidence.profiles := by
      rw [evidence_of_build hs, profiles_evidence hroom]
      exact List.mem_map_of_mem hp
    rw [Evidence.ranking?_finished, if_pos hmem, Option.isSome_some]
  · rw [Session.recommendationsFor_writes, Session.recommendationsFor_writes, hranking]

/-- Two profiles with a listing in common, a third one that is similar to the second, and a fourth
one without bookmarks. -/
def chain : Snapshot where
  profiles := [{ id := 1, username := "ann" }, { id := 2, username := "bob" },
    { id := 3, username := "eve" }, { id := 4, username := "joe" }]
  listings := [{ id := 1, title := "Atlas" }, { id := 2, title := "Compass" },
    { id := 3, title := "Sextant" }]
  bookmarks := [⟨3, 2⟩, ⟨1, 1⟩, ⟨2, 1⟩, ⟨3, 3⟩, ⟨2, 2⟩]

def rechained : Snapshot :=
  chain.withBookmarks [⟨1, 1⟩, ⟨4, 2⟩, ⟨2, 1⟩, ⟨2, 2⟩, ⟨4, 3⟩, ⟨4, 2⟩]

theorem collaborative_local_chain :
    chain.bookmarksAround 1 = rechained.bookmarksAround 1 ∧
    ∃ g g', chain.buildWithReport = .ok (g, ⟨7, 5, 0⟩) ∧
      rechained.buildWithReport = .ok (g', ⟨7, 6, 0⟩) ∧
      ∃ summary u sink summary' u' sink',
        (Session.start (Collaborative.strategy ⟨g, {}⟩) {}).recommend (.ofStore .empty none)
          = (.ok summary, u, sink) ∧
        (Session.start (Collaborative.strategy ⟨g', {}⟩) {}).recommend (.ofStore .empty none)
          = (.ok summary', u', sink') ∧
        u.ranking? (profileId 1) = u'.ranking? (profileId 1) ∧
        (u.ranking? (profileId 1)).isSome ∧
        sink.store.recommendationsFor (profileId 1)
          = sink'.store.recommendationsFor (profileId 1) ∧
        sink.store.contents.map (·.profile) = [profileId 1, profileId 2, profileId 3] ∧
        sink'.store.contents.map (·.profile) = [profileId 1, profileId 2, profileId 4] := by
  have haround : chain.bookmarksAround 1 = rechained.bookmarksAround 1 := by decide
  have hreport : chain.buildWithReport.map (·.2) = .ok ⟨7, 5, 0⟩ := by decide +kernel
  have hreport' : rechained.buildWithReport.map (·.2) = .ok ⟨7, 6, 0⟩ := by decide +kernel
  have hstored : chain.buildWithReport.map (fun built ↦
      ((Session.start (Collaborative.strategy ⟨built.1, {}⟩) {}).recommend
        (.ofStore .empty none)).2.2.store.contents.map (·.profile))
      = .ok [profileId 1, profileId 2, profileId 3] := by decide +kernel
  have hstored' : rechained.buildWithReport.map (fun built ↦
      ((Session.start (Collaborative.strategy ⟨built.1, {}⟩) {}).recommend
        (.ofStore .empty none)).2.2.store.contents.map (·.profile))
      = .ok [profileId 1, profileId 2, profileId 4] := by decide +kernel
  obtain ⟨⟨g, report⟩, hs, rfl⟩ := map_eq_ok.mp hreport
  obtain ⟨⟨g', report'⟩, ht, rfl⟩ := map_eq_ok.mp hreport'
  obtain ⟨summary, u, sink, summary', u', sink', hrun, hrun', hranking, hsome, hlists⟩ :=
    collaborative_local hs ht rfl rfl rfl rfl (p := { id := 1, username := "ann" })
      List.mem_cons_self haround {} .empty
  rw [hs] at hstored
  rw [ht] at hstored'
  have hprofiles : ((Session.start _ {}).recommend (.ofStore .empty none)).2.2.store.contents.map _
      = _ := Except.ok.inj hstored
  have hprofiles' : ((Session.start _ {}).recommend (.ofStore .empty none)).2.2.store.contents.map _
      = _ := Except.ok.inj hstored'
  rw [hrun] at hprofiles
  rw [hrun'] at hprofiles'
  exact ⟨haround, g, g', hs, ht, summary, u, sink, summary', u', sink', hrun, hrun', hranking,
    hsome (by decide), hlists, hprofiles, hprofiles'⟩

end Snapshot

end BookmarkGraph
