import BookmarkGraph.Proofs.Recommend.Keepers

/-!
# A larger limit only extends the lists

The limit enters a run at two places. Every table is cut to it once it is ranked, and popularity
stops scanning once its table has so many listings, so two runs with different limits rank different
tables. For collaborative filtering the tables are the same and a ranking is cut later or earlier.
For popularity the scan follows the order of the scores, so each table is the beginning of one and
the same sorted list, and ranking does not rearrange it.
-/

namespace BookmarkGraph

open Domain

namespace Evidence

variable {e : Evidence} {n m : UInt64}

/-- The listings that a strategy of the library ranks for a profile with the smaller limit begin
those that it ranks with the larger one. -/
theorem ranked_table_take (h : (e.listings.map (·.id)).Nodup) (config : Config) (hle : n ≤ m)
    (name : String) (profile : ElementId) :
    (e.table { config with topN := n } name profile).ranked n.toNat
      = ((e.table { config with topN := m } name profile).ranked m.toNat).take n.toNat := by
  by_cases hname : name = Collaborative.name
  · rw [table, table, if_pos hname, if_pos hname]
    exact ScoreTable.ranked_take (e.collaborative config profile) hle
  · have hcut : n.toNat ≤ m.toNat := UInt64.le_iff_toNat_le.mp hle
    have hranks : ∀ topN : UInt64, (e.popularity { config with topN } profile).ranked topN.toNat
        = (e.popular.filter fun entry ↦ !e.passes config.respectVisibility profile entry).take
            topN.toNat := fun topN ↦ ranked_popularity h { config with topN } profile
    rw [table, table, if_neg hname, if_neg hname, hranks, hranks, List.take_take,
      Nat.min_eq_left hcut]

theorem ranked_finished (h : e.profiles.Nodup) (config : Config) (name : String) :
    (e.finished config name).ranked = e.profiles.map fun profile ↦
      ⟨profile, (e.table config name profile).ranked config.topN.toNat⟩ := by
  have hkeys : (e.finished config name).tally.scores.keys = e.profiles :=
    (Tally.fill_of_ok (fun _ _ ↦ ⟨_, rfl⟩) .empty h).1
  have hrows : (e.finished config name).tally.scores.rows
      = e.profiles.map fun profile ↦ (profile, e.table config name profile) := by
    rw [← hkeys]
    refine Table.rows_eq_map fun profile hprofile ↦ ?_
    rw [hkeys] at hprofile
    rw [finished, Tally.get?_fill, if_pos hprofile]
  rw [Session.ranked, ProfileScores.ranked, hrows, List.map_map]
  rfl

end Evidence

theorem Graph.profiles_evidence {g : Graph} (hsize : g.vertices.size ≤ arenaCapacity) :
    g.evidence.profiles = (g.verticesWithLabel Label.profile).map g.idAt :=
  (map_idAt_verticesWithLabel hsize Label.profile).symm

/-- A strategy of the library finishes on every graph that mutations lead to, and what it finds
depends on the evidence only. -/
theorem Graph.Reachable.evaluate_builtin {g : Graph} (h : g.Reachable) (config : Config)
    {name : String} (hname : name ∈ Registry.builtins.names) :
    (Registry.builtins.create name ⟨g, config⟩ >>= Session.evaluate)
      = .ok (g.evidence.finished config name) := by
  rw [Registry.create_builtins_of_mem h config hname, ok_bind, Evidence.evaluate_session]

/-- **A larger limit only extends the lists.** Run a strategy of the library twice on a graph that
mutations lead to, with settings that differ in the limit only. Both runs succeed and rank a list
for every vertex with the label of profiles, and with the smaller limit each list is the beginning
of that with the larger one: scores and order are the same, and as many listings are there as the
limit allows. -/
theorem Graph.Reachable.rankings_take {g : Graph} (h : g.Reachable) (config : Config)
    {n m : UInt64} (hle : n ≤ m) {name : String} (hname : name ∈ Registry.builtins.names) :
    ∃ few many : Session,
      (Registry.builtins.create name ⟨g, { config with topN := n }⟩ >>= Session.evaluate)
        = .ok few ∧
      (Registry.builtins.create name ⟨g, { config with topN := m }⟩ >>= Session.evaluate)
        = .ok many ∧
      many.ranked.map (·.profile) = (g.verticesWithLabel Label.profile).map g.idAt ∧
      few.ranked = many.ranked.map fun list ↦ ⟨list.profile, list.listings.take n.toNat⟩ := by
  have hprofiles : g.evidence.profiles.Nodup := h.indexed.nodup_ids.sublist g.profiles_sublist
  have hlistings := h.indexed.nodup_ids.sublist g.listings_sublist
  refine ⟨_, _, h.evaluate_builtin { config with topN := n } hname,
    h.evaluate_builtin { config with topN := m } hname, ?_, ?_⟩
  · rw [Evidence.ranked_finished hprofiles, List.map_map,
      ← profiles_evidence h.wellFormed.vertices_le]
    exact List.map_id _
  · rw [Evidence.ranked_finished hprofiles, Evidence.ranked_finished hprofiles, List.map_map]
    refine List.map_congr_left fun profile _ ↦ ?_
    exact congrArg (RankedList.mk profile)
      (Evidence.ranked_table_take hlistings config hle name profile)

/-- Two of the three listings that are suggested to the first profile have equal scores, and the
smaller limit separates them. -/
theorem Graph.rankings_take_bazaar :
    (1 : UInt64) ≤ 2 ∧ Collaborative.name ∈ Registry.builtins.names ∧
      ∃ few many : Session,
        (Registry.builtins.create Collaborative.name ⟨bazaar, { topN := 1 }⟩
          >>= Session.evaluate) = .ok few ∧
        (Registry.builtins.create Collaborative.name ⟨bazaar, { topN := 2 }⟩
          >>= Session.evaluate) = .ok many ∧
        many.ranked.map (·.profile) = [.name "ann", .name "bob", .name "cat"] ∧
        many.ranked.head?
          = some ⟨.name "ann", [⟨.name "sextant", .ofNat 2⟩, ⟨.name "atlas", .ofNat 2⟩]⟩ ∧
        few.ranked.head? = some ⟨.name "ann", [⟨.name "sextant", .ofNat 2⟩]⟩ := by
  have hle : (1 : UInt64) ≤ 2 := by decide
  have hname : Collaborative.name ∈ Registry.builtins.names := by decide
  obtain ⟨few, many, hfew, hmany, hprofiles, hcut⟩ :=
    reachable_bazaar.rankings_take {} hle hname
  have hscored : (bazaar.evidence.collaborative { topN := 2 } (.name "ann")).scored
      = [⟨.name "sextant", .ofNat 2⟩, ⟨.name "atlas", .ofNat 2⟩,
        ⟨.name "theodolite", .ofNat 1⟩] := by decide +kernel
  have hhead : many.ranked.head?
      = some ⟨.name "ann", [⟨.name "sextant", .ofNat 2⟩, ⟨.name "atlas", .ofNat 2⟩]⟩ := by
    rw [Except.ok.inj (hmany.symm.trans (reachable_bazaar.evaluate_builtin { topN := 2 } hname)),
      Evidence.ranked_finished (reachable_bazaar.indexed.nodup_ids.sublist bazaar.profiles_sublist)]
    have hprofiles : bazaar.evidence.profiles = [.name "ann", .name "bob", .name "cat"] := by
      decide +kernel
    rw [hprofiles, List.map_cons, List.head?_cons, Evidence.table, if_pos rfl, ScoreTable.ranked,
      hscored, List.mergeSort_of_pairwise (by decide +kernel)]
    rfl
  have hfirst : few.ranked.head? = some ⟨.name "ann", [⟨.name "sextant", .ofNat 2⟩]⟩ := by
    rw [hcut, List.head?_map, hhead]
    rfl
  refine ⟨hle, hname, few, many, hfew, hmany, ?_, hhead, hfirst⟩
  rw [hprofiles]
  decide +kernel

end BookmarkGraph
