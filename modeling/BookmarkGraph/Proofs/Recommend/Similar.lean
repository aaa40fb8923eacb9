import BookmarkGraph.Proofs.Recommend.Keepers

/-!
# Collaborative filtering ranks by votes

Collaborative filtering walks from a profile to what it keeps, back to all who keep it, and on to
what these keep, with a query for every step and a table of scores that grows along the way.
`Graph.Reachable.collaborative_ranks` says what comes of it without walking: a set of listings, a
number for each of them, and an order for those with the same number.

The set and the number are a matter of which edges there are. The order of ties is a matter of the
walk: `MetBefore` compares two listings by the first similar profile that keeps one of them, and
then by their places among the bookmarks of that profile. A score table lists its keys in the order
of first use, which is the order of first occurrences along the walk, and `pairwise_metBefore` knows
that order.
-/

namespace BookmarkGraph

open Domain

variable {g : Graph} {p q l : VertexIndex} {v w : Vertex}

/-- In a walk through lists an element is met once for each list that has it, repetitions within a
list being removed. -/
theorem count_flatMap_eraseDups {α β : Type} [BEq β] [LawfulBEq β] (f : α → List β) (xs : List α)
    (b : β) :
    (xs.flatMap fun x ↦ (f x).eraseDups).count b = (xs.filter fun x ↦ (f x).contains b).length := by
  induction xs with
  | nil => rfl
  | cons x xs ih =>
    rw [List.flatMap_cons, List.count_append, ih]
    by_cases hb : b ∈ f x
    · rw [List.count_eq_one_of_mem (nodup_eraseDups (f x)) (List.mem_eraseDups.mpr hb),
        List.filter_cons_of_pos (p := fun x ↦ (f x).contains b) (List.contains_iff_mem.mpr hb),
        List.length_cons, Nat.add_comm]
    · rw [List.count_eq_zero_of_not_mem fun hmem ↦ hb (List.mem_eraseDups.mp hmem),
        List.filter_cons_of_neg (p := fun x ↦ (f x).contains b) (by simpa using hb), Nat.zero_add]

namespace Graph

/-! ## Similar profiles and their votes -/

/-- Another vertex that keeps something in common with a vertex. -/
def Similar (g : Graph) (profile other : VertexIndex) : Prop :=
  other ≠ profile ∧ ∃ listing, g.Linked Label.bookmarked profile listing ∧
    g.Linked Label.bookmarked other listing

/-- Those similar to a vertex, in the order in which a walk along its bookmarks and back meets
them. -/
def similar (g : Graph) (profile : VertexIndex) : List VertexIndex :=
  ((g.neighbours .source profile Label.bookmarked).flatMap fun l ↦
    g.neighbours .target l Label.bookmarked).eraseDups.filter (· ≠ profile)

/-- What somebody similar to a profile keeps, the profile does not keep and it may see. -/
def Suggested (g : Graph) (respect : Bool) (profile listing : VertexIndex) : Prop :=
  (∃ other, g.Similar profile other ∧ g.Linked Label.bookmarked other listing) ∧
    ¬g.Linked Label.bookmarked profile listing ∧ g.Visible respect profile listing

/-- How many of those similar to a profile keep a listing, parallel bookmarks counted once. -/
noncomputable def voteCount (g : Graph) (profile listing : VertexIndex) : Nat :=
  {other | g.Similar profile other ∧ g.Linked Label.bookmarked other listing}.ncard

/-- The score of a suggested listing. -/
noncomputable def suggestionScore (g : Graph) (profile listing : VertexIndex) : Weighting → Nat
  | .frequency => g.voteCount profile listing
  | .uniform => 1

/-- Of two listings, the one that is met first on the way through the bookmarks of those similar to
a profile. -/
def SuggestedBefore (g : Graph) (profile : VertexIndex) : VertexIndex → VertexIndex → Prop :=
  MetBefore (fun other ↦ g.neighbours .source other Label.bookmarked) (g.similar profile)

theorem mem_similar (hg : g.WellFormed) : q ∈ g.similar p ↔ g.Similar p q := by
  rw [similar, List.mem_filter, List.mem_eraseDups, List.mem_flatMap, decide_eq_true_eq, Similar,
    and_comm]
  simp only [mem_neighbours_source hg, mem_neighbours_target hg]

theorem nodup_similar (g : Graph) (p : VertexIndex) : (g.similar p).Nodup :=
  (nodup_eraseDups _).filter _

theorem vertex_of_mem_similar (hg : g.WellFormed) (h : q ∈ g.similar p) :
    ∃ u, g.vertex q = .ok u := by
  obtain ⟨-, listing, -, hlinked⟩ := (mem_similar hg).mp h
  exact vertex_of_mem_neighbours hg ((mem_neighbours_target hg).mpr hlinked)

theorem voteCount_eq_length (hg : g.WellFormed) (p l : VertexIndex) :
    g.voteCount p l = ((g.similar p).filter fun other ↦
      (g.neighbours .source other Label.bookmarked).contains l).length := by
  have hvoters : {other | g.Similar p other ∧ g.Linked Label.bookmarked other l}
      = {other | other ∈ (g.similar p).filter fun other ↦
        (g.neighbours .source other Label.bookmarked).contains l} := by
    ext other
    change _ ∧ _ ↔ other ∈ List.filter _ _
    rw [List.mem_filter, mem_similar hg, List.contains_iff_mem, mem_neighbours_source hg]
  rw [voteCount, hvoters, ncard_setOf_mem, eraseDups_of_nodup ((g.nodup_similar p).filter _)]

theorem suggestionScore_lt (hg : g.WellFormed) (p l : VertexIndex) (weighting : Weighting) :
    g.suggestionScore p l weighting < 2 ^ 53 := by
  cases weighting with
  | uniform => exact (by decide : 1 < 2 ^ 53)
  | frequency =>
    rw [suggestionScore, voteCount_eq_length hg]
    exact Nat.lt_of_le_of_lt
      ((List.length_filter_le _ _).trans (length_le_of_nodup (g.nodup_similar p))) (by decide)

/-! ## The walk -/

/-- The vertices that collaborative filtering may suggest to a profile, in the order of the walk. -/
def suggestions (g : Graph) (respect : Bool) (profile : VertexIndex) : List VertexIndex :=
  ((g.similar profile).flatMap fun other ↦
    g.neighbours .source other Label.bookmarked).eraseDups.filter fun l ↦
      !(g.evidence.kept (g.idAt profile)).contains (g.idAt l)
        && g.evidence.sees respect (g.idAt profile) (g.idAt l)

theorem mem_suggestions (hg : g.WellFormed)
    (hsize : g.vertices.size < arenaCapacity) (hp : g.vertex p = .ok v) {respect : Bool} :
    l ∈ g.suggestions respect p ↔ g.Suggested respect p l := by
  have hmet : (∃ other ∈ g.similar p, l ∈ g.neighbours .source other Label.bookmarked) ↔
      ∃ other, g.Similar p other ∧ g.Linked Label.bookmarked other l := by
    simp only [mem_similar hg, mem_neighbours_source hg]
  rw [suggestions, List.mem_filter, List.mem_eraseDups, List.mem_flatMap, hmet, Bool.and_eq_true,
    Bool.not_eq_true', ← Bool.not_eq_true, List.contains_iff_mem, idAt_eq hp, Suggested]
  refine and_congr_right ?_
  rintro ⟨other, -, hlinked⟩
  obtain ⟨w, hw⟩ := vertex_of_mem_neighbours hg ((mem_neighbours_source hg).mpr hlinked)
  rw [idAt_eq hw, mem_kept_iff hg hp hw, sees_iff hg hsize hp hw]

/-- Sorting the suggestions by any score ranks them, the walk deciding between equal scores. -/
theorem ranks_suggestions (hg : g.WellFormed)
    (hsize : g.vertices.size < arenaCapacity) (hp : g.vertex p = .ok v) (respect : Bool)
    (score : VertexIndex → Nat) :
    Ranks (g.Suggested respect p) score (g.SuggestedBefore p)
      ((g.suggestions respect p).mergeSort fun a b ↦ score b ≤ score a) := by
  have hnodup : (g.suggestions respect p).Nodup := (nodup_eraseDups _).filter _
  have hbefore : (g.suggestions respect p).Pairwise (g.SuggestedBefore p) :=
    (pairwise_metBefore _ _).filter _
  have hranks := ranks_mergeSort hnodup hbefore score
  refine ⟨fun l ↦ ?_, hranks.nodup, hranks.pairwise⟩
  rw [← mem_suggestions hg hsize hp]
  exact hranks.mem_iff l

/-! ## The evidence, vertex by vertex -/

theorem map_idAt_similar (hg : g.WellFormed) (hp : g.vertex p = .ok v) :
    (g.similar p).map g.idAt = g.evidence.similar v.id := by
  rw [← Collaborative.map_idAt_similar hg hp, similar, Collaborative.similar]
  refine congrArg _ (List.filter_congr fun other hother ↦ ?_)
  obtain ⟨u, hu⟩ := has_neighbours hg other (List.mem_eraseDups.mp hother)
  rw [decide_eq_decide, List.mem_singleton, idAt_eq hu, idAt_eq hp]
  exact not_congr ⟨fun heq ↦ by rw [heq, hp] at hu; rw [Except.ok.inj hu], hg.index_inj hu hp⟩

end Graph

/-- The votes for what a profile may see. -/
def Evidence.visibleVotes (e : Evidence) (respect : Bool) (profile : ElementId) : List ElementId :=
  (e.votes profile).filter (e.sees respect profile)

/-- Votes are all that those similar to a profile keep, less what the profile keeps itself or may
not see. -/
theorem Evidence.visibleVotes_eq (e : Evidence) (respect : Bool) (profile : ElementId) :
    e.visibleVotes respect profile
      = ((e.similar profile).flatMap fun other ↦ (e.kept other).eraseDups).filter fun listing ↦
        !(e.kept profile).contains listing && e.sees respect profile listing := by
  rw [visibleVotes, votes, List.filter_flatMap, List.filter_flatMap]
  refine List.flatMap_congr fun other _ ↦ ?_
  rw [List.filter_filter]
  refine List.filter_congr fun listing _ ↦ ?_
  rw [Bool.and_comm, List.contains_eq_mem, decide_not]

namespace Graph

theorem eraseDups_visibleVotes (hg : g.WellFormed) (hp : g.vertex p = .ok v)
    (respect : Bool) :
    (g.evidence.visibleVotes respect v.id).eraseDups = (g.suggestions respect p).map g.idAt := by
  have hwalk : (g.evidence.similar v.id).flatMap g.evidence.kept
      = ((g.similar p).flatMap fun other ↦
        g.neighbours .source other Label.bookmarked).map g.idAt := by
    rw [← map_idAt_similar hg hp, List.map_flatMap, List.flatMap_map]
    refine List.flatMap_congr fun other hother ↦ ?_
    obtain ⟨u, hu⟩ := vertex_of_mem_similar hg hother
    rw [idAt_eq hu, map_idAt_kept hg hu]
  have honce : ∀ other, (g.evidence.kept other).eraseDups.eraseDups
      = (g.evidence.kept other).eraseDups := fun other ↦ eraseDups_of_nodup (nodup_eraseDups _)
  rw [Evidence.visibleVotes_eq, eraseDups_filter, eraseDups_flatMap rfl honce, hwalk,
    ← eraseDups_map_idAt hg, List.filter_map, suggestions, idAt_eq hp]
  · rfl
  · intro l hl
    obtain ⟨other, -, hl⟩ := List.mem_flatMap.mp hl
    exact vertex_of_mem_neighbours hg hl

theorem count_visibleVotes (hg : g.WellFormed) (hp : g.vertex p = .ok v)
    {respect : Bool} (hl : l ∈ g.suggestions respect p) :
    (g.evidence.visibleVotes respect v.id).count (g.idAt l) = g.voteCount p l := by
  obtain ⟨hmet, hoffered⟩ := List.mem_filter.mp hl
  obtain ⟨other, -, hkept⟩ := List.mem_flatMap.mp (List.mem_eraseDups.mp hmet)
  obtain ⟨w, hw⟩ := vertex_of_mem_neighbours hg hkept
  rw [idAt_eq hp] at hoffered
  rw [Evidence.visibleVotes_eq, List.count_filter (p := fun listing ↦
      !(g.evidence.kept v.id).contains listing && g.evidence.sees respect v.id listing) hoffered,
    count_flatMap_eraseDups,
    ← map_idAt_similar hg hp, List.filter_map, List.length_map, voteCount_eq_length hg]
  refine congrArg _ (List.filter_congr fun other hother ↦ ?_)
  obtain ⟨u, hu⟩ := vertex_of_mem_similar hg hother
  rw [Function.comp_apply, Bool.eq_iff_iff, List.contains_iff_mem, List.contains_iff_mem,
    idAt_eq hu, idAt_eq hw, mem_kept_iff hg hu hw, mem_neighbours_source hg]

theorem count_visibleVotes_lt (hg : g.WellFormed) (hp : g.vertex p = .ok v)
    (respect : Bool) (listing : ElementId) :
    (g.evidence.visibleVotes respect v.id).count listing < 2 ^ 53 := by
  have hle : (g.evidence.visibleVotes respect v.id).count listing ≤ (g.similar p).length := by
    rw [Evidence.visibleVotes_eq]
    refine (List.filter_sublist.count_le listing).trans ?_
    rw [count_flatMap_eraseDups, ← map_idAt_similar hg hp]
    exact (List.length_filter_le _ _).trans (List.length_map _).le
  exact Nat.lt_of_le_of_lt (hle.trans (length_le_of_nodup (g.nodup_similar p))) (by decide)

noncomputable def suggestionEntry (g : Graph) (profile : VertexIndex) (weighting : Weighting)
    (listing : VertexIndex) : ScoredListing :=
  ⟨g.idAt listing, .ofNat (g.suggestionScore profile listing weighting)⟩

theorem rows_collaborative (hg : g.WellFormed) (hp : g.vertex p = .ok v)
    (config : Config) :
    (g.evidence.collaborative config v.id).rows
      = (g.suggestions config.respectVisibility p).map fun l ↦
        (g.idAt l, .ofNat (g.suggestionScore p l config.weighting)) := by
  change (ScoreTable.ofVotes (config.weighting = .frequency)
    (g.evidence.visibleVotes config.respectVisibility v.id)).rows = _
  rw [ScoreTable.rows_ofVotes _ (count_visibleVotes_lt hg hp _),
    eraseDups_visibleVotes hg hp, List.map_map]
  refine List.map_congr_left fun l hl ↦ ?_
  rw [Function.comp_apply, count_visibleVotes hg hp hl]
  cases config.weighting <;> rfl

end Graph

/-- **Collaborative filtering is a ranking by votes.** On a graph that mutations lead to and whose
arena of vertices is not full, a run of the strategy succeeds. It ranks and stores for a profile the
first of what the profile may see and does not keep and somebody similar keeps. A listing has as
many votes as there are similar profiles that keep it, or a single one where weights are uniform;
those with more votes come first, and those with as many in the order of the walk. -/
theorem Graph.Reachable.collaborative_ranks (h : g.Reachable)
    (hsize : g.vertices.size < arenaCapacity) (config : Config) (hp : g.vertex p = .ok v)
    (hlabel : v.label = Label.profile) (store : Store) :
    ∃ order, Ranks (g.Suggested config.respectVisibility p)
        (g.suggestionScore p · config.weighting) (g.SuggestedBefore p) order ∧
      (∀ other, Ranks (g.Suggested config.respectVisibility p)
        (g.suggestionScore p · config.weighting) (g.SuggestedBefore p) other → other = order) ∧
      (Session.start (Collaborative.strategy ⟨g, config⟩) config).Recommends store v.id
        ((order.take config.topN.toNat).map (g.suggestionEntry p config.weighting)) := by
  have hranks := ranks_suggestions h.wellFormed hsize hp config.respectVisibility
    (g.suggestionScore p · config.weighting)
  refine ⟨_, hranks, fun other hother ↦ hranks.unique (fun _ _ ↦ MetBefore.asymm) hother, ?_⟩
  have hrecommends := g.evidence.recommends_session config Collaborative.name store
    (g.id_mem_profiles hsize hp hlabel)
  rw [Evidence.table, if_pos rfl,
    ScoreTable.ranked_of_rows (rows_collaborative h.wellFormed hp config)
      fun l _ ↦ suggestionScore_lt h.wellFormed p l config.weighting] at hrecommends
  rw [h.start_collaborative]
  exact hrecommends

/-- Both other profiles keep the two listings that come first; the second profile, which is met
first, kept them in the opposite order. -/
theorem Graph.collaborative_ranks_bazaar :
    let config : Config := { topN := 2 }
    (Session.start (Collaborative.strategy ⟨bazaar, config⟩) config).Recommends .empty
      (.name "ann") [⟨.name "sextant", .ofNat 2⟩, ⟨.name "atlas", .ofNat 2⟩] := by
  intro config
  have hg := reachable_bazaar.wellFormed
  have hsize : bazaar.vertices.size < arenaCapacity := by decide +kernel
  have hann : (bazaar.vertex ⟨0⟩).map (fun v ↦ (v.id, v.label))
      = .ok (.name "ann", Label.profile) := by decide +kernel
  obtain ⟨v, hv, heq⟩ := map_eq_ok.mp hann
  obtain ⟨hid, hlabel⟩ := Prod.mk.inj heq
  have hscore : ∀ l, bazaar.suggestionScore ⟨0⟩ l .frequency
      = ((bazaar.similar ⟨0⟩).filter fun other ↦
        (bazaar.neighbours .source other Label.bookmarked).contains l).length :=
    fun l ↦ by rw [suggestionScore, voteCount_eq_length hg]
  have hwalk : bazaar.suggestions true ⟨0⟩ = [⟨6⟩, ⟨3⟩, ⟨7⟩] := by decide +kernel
  have hranks := ranks_suggestions hg hsize hv true
    (bazaar.suggestionScore ⟨0⟩ · .frequency)
  have hsorted : ([⟨6⟩, ⟨3⟩, ⟨7⟩] : List VertexIndex).Pairwise fun a b ↦
      decide (bazaar.suggestionScore ⟨0⟩ b .frequency ≤ bazaar.suggestionScore ⟨0⟩ a .frequency)
        = true := by
    simp only [hscore]
    decide +kernel
  rw [hwalk, List.mergeSort_of_pairwise hsorted] at hranks
  obtain ⟨order, -, hunique, hrecommends⟩ :=
    reachable_bazaar.collaborative_ranks hsize config hv hlabel .empty
  rw [← hunique _ hranks, hid] at hrecommends
  have hentries : (([⟨6⟩, ⟨3⟩, ⟨7⟩] : List VertexIndex).take 2).map
      (bazaar.suggestionEntry ⟨0⟩ .frequency)
        = [⟨.name "sextant", .ofNat 2⟩, ⟨.name "atlas", .ofNat 2⟩] := by
    rw [List.take_succ_cons, List.take_succ_cons, List.take_zero, List.map_cons, List.map_cons,
      List.map_nil, suggestionEntry, suggestionEntry, hscore, hscore]
    decide +kernel
  exact hentries ▸ hrecommends

end BookmarkGraph
