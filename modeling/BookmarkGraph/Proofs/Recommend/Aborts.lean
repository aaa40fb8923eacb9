import BookmarkGraph.Proofs.Domain.Construction
import BookmarkGraph.Proofs.Recommend.Handover

/-!
# How a batch ends early

A batch looks at all names, then builds the graph, and only then makes and runs its strategies, one
after the other. So the reasons to end early have an order: an unknown name, a repeated key, a
strategy that fails. The first of them that applies is the error of the batch.

A strategy can fail when it is made, when it prepares and while it scores, which is
`Registry.Fails`. All of this is over before the first of its writes, so the scores that it has by
then are lost: a strategy that fails hands on the sink as it got it (`Registry.Fails.runAll_cons`),
and the names behind it are never looked up. What a batch leaves behind is therefore what the
strategies in front leave, and nothing in it depends on those behind.
-/

namespace BookmarkGraph

variable {registry other : Registry} {context : Context} {name : String} {names : List String}

/-! ## Strategies that fail -/

namespace Registry

/-- The ways in which the strategy of a name can fail, and with which error. -/
inductive Fails (registry : Registry) (context : Context) (name : String) : GraphError → Prop
  /-- The constructor refuses to make it. -/
  | refused {make : StrategyConstructor} {e : GraphError} :
    registry.find? name = some make → make context = .error e → Fails registry context name e
  /-- It cannot prepare. -/
  | unprepared {make : StrategyConstructor} {strategy : Strategy} {e : GraphError} :
    registry.find? name = some make → make context = .ok strategy →
      strategy.initiate = .error e → Fails registry context name e
  /-- It gives up while it scores, whatever it has scored by then. -/
  | unfinished {make : StrategyConstructor} {strategy : Strategy} {scoring : Scoring}
    {e : GraphError} :
    registry.find? name = some make → make context = .ok strategy →
      strategy.initiate = .ok scoring → (scoring .empty).1 = .error e →
        Fails registry context name e

theorem create_of_find? {make : StrategyConstructor} (h : registry.find? name = some make)
    (context : Context) :
    registry.create name context = (make context).map (Session.start · context.config) := by
  cases hstrategy : make context <;> simp only [create, h, hstrategy, Except.map]

theorem create_congr (h : other.find? name = registry.find? name) (context : Context) :
    other.create name context = registry.create name context := by
  rw [create, create, h]

theorem Fails.congr {e : GraphError} (h : registry.Fails context name e)
    (hfind : other.find? name = registry.find? name) : other.Fails context name e := by
  cases h with
  | refused hmake he => exact .refused (hfind.trans hmake) he
  | unprepared hmake hstrategy he => exact .unprepared (hfind.trans hmake) hstrategy he
  | unfinished hmake hstrategy hscoring he =>
    exact .unfinished (hfind.trans hmake) hstrategy hscoring he

/-- A strategy that fails asks for no write, and ends the run of all names behind it. -/
theorem Fails.runAll_cons {e : GraphError} (h : registry.Fails context name e) (sink : Sink)
    (names : List String) :
    Batch.runAll registry context sink (name :: names) = (.error e, sink) := by
  cases h with
  | refused hmake he => simp only [Batch.runAll, create_of_find? hmake, he, Except.map]
  | unprepared hmake hstrategy he =>
    simp only [Batch.runAll, create_of_find? hmake, hstrategy, Except.map, Session.recommend,
      Session.initiate, Session.start, he]
  | @unfinished make strategy scoring _ hmake hstrategy hscoring he =>
    rcases hrun : scoring .empty with ⟨answer, tally⟩
    obtain rfl : answer = .error e := by rw [← he, hrun]
    simp only [Batch.runAll, create_of_find? hmake, hstrategy, Except.map, Session.recommend,
      Session.initiate, Session.start, hscoring, Session.score, hrun]

theorem fails_or_evaluates (h : registry.contains name = true) (context : Context) :
    (∃ e, registry.Fails context name e) ∨
      ∃ t, (registry.create name context >>= Session.evaluate) = .ok t := by
  obtain ⟨make, hmake⟩ := Option.isSome_iff_exists.mp h
  rw [create_of_find? hmake]
  cases hstrategy : make context with
  | error e => exact .inl ⟨e, .refused hmake hstrategy⟩
  | ok strategy =>
    cases hscoring : strategy.initiate with
    | error e => exact .inl ⟨e, .unprepared hmake hstrategy hscoring⟩
    | ok scoring =>
      cases hrun : scoring .empty with
      | mk answer tally =>
        cases answer with
        | error e => exact .inl ⟨e, .unfinished hmake hstrategy hscoring (congrArg (·.1) hrun)⟩
        | ok => exact .inr ⟨_, Session.evaluate_of_scoring hscoring hrun⟩

end Registry

/-! ## Runs of several names -/

namespace Batch

/-- Strategies in front of one that fails are run as if they were alone. -/
theorem runAll_append_of_fails {before : List String} {sink left : Sink}
    {summaries : List RunSummary} {e : GraphError}
    (hbefore : runAll registry context sink before = (.ok summaries, left))
    (hfails : registry.Fails context name e) (after : List String) :
    runAll registry context sink (before ++ name :: after) = (.error e, left) := by
  induction before generalizing sink summaries with
  | nil =>
    rw [List.nil_append, hfails.runAll_cons, (Prod.mk.inj hbefore).2]
  | cons first before ih =>
    rw [runAll] at hbefore
    rw [List.cons_append, runAll]
    cases hcreate : registry.create first context with
    | error e => simp [hcreate] at hbefore
    | ok session =>
      rcases hrun : session.recommend sink with ⟨e | summary, t, between⟩
      · simp [hcreate, hrun] at hbefore
      · rcases hrest : runAll registry context between before with ⟨e | later, sink'⟩
        · simp [hcreate, hrun, hrest, Except.map] at hbefore
        · simp only [hcreate, hrun, hrest, Prod.mk.injEq] at hbefore
          obtain ⟨-, rfl⟩ := hbefore
          simp only [hrun, ih hrest, Except.map]

theorem runAll_congr (h : ∀ name ∈ names, other.find? name = registry.find? name) (sink : Sink) :
    runAll other context sink names = runAll registry context sink names := by
  induction names generalizing sink with
  | nil => rfl
  | cons name names ih =>
    have hrest := ih fun n hn ↦ h n (List.mem_cons_of_mem name hn)
    simp only [runAll, Registry.create_congr (h name List.mem_cons_self), hrest]

theorem exists_evaluate (hknown : ∀ name ∈ names, registry.contains name = true)
    (h : ∀ name ∈ names, ∀ e, ¬registry.Fails context name e) :
    ∃ sessions, evaluate registry context names = .ok sessions :=
  exists_mapM_eq_ok fun name hname ↦
    (Registry.fails_or_evaluates (hknown name hname) context).resolve_left fun ⟨e, he⟩ ↦
      h name hname e he

/-! ## Errors of a batch -/

/-- The first unknown name ends a batch. -/
theorem run_of_unknown {config : Config} {before after : List String}
    (hstrategies : config.strategies = before ++ name :: after)
    (hbefore : ∀ known ∈ before, registry.contains known = true)
    (hname : registry.contains name = false) (s : Snapshot) (sink : Sink) :
    run registry config s sink = (.error (.unknownStrategy name), sink) := by
  have hfind : (config.strategies.find? fun name ↦ !registry.contains name) = some name := by
    rw [List.find?_eq_some_iff_append]
    exact ⟨by rw [hname]; rfl, before, after, hstrategies, fun known hknown ↦ by
      rw [hbefore known hknown]; rfl⟩
  rw [run, hfind]

/-- What can be seen of a batch that ends early, and of one that does not. -/
structure Ends (registry : Registry) (config : Config) (s : Snapshot) (store : Store) : Prop where
  /-- The first unknown name ends the batch before anything is built or written, whatever is wrong
  with the snapshot. -/
  unknown : ∀ before name after, config.strategies = before ++ name :: after →
    (∀ known ∈ before, registry.contains known = true) → registry.contains name = false →
      run registry config s (.ofStore store none)
        = (.error (.unknownStrategy name), .ofStore store none)
  /-- If all names are known, the first repeated key ends the batch before anything is written. -/
  repeated : (∀ name ∈ config.strategies, registry.contains name = true) → ¬s.KeysDistinct →
    ∃ id, FirstRepeated s.ids id ∧ run registry config s (.ofStore store none)
      = (.error (.duplicateId id), .ofStore store none)
  /-- Otherwise there is a graph, and the first strategy to fail ends the batch with its error. What
  is left is what the strategies before it leave when they are run alone. It is the same with every
  registry that has the same constructors up to there, whatever it makes of the names behind. -/
  failed : (∀ name ∈ config.strategies, registry.contains name = true) → s.KeysDistinct →
    ∃ g build, s.buildWithReport = .ok (g, build) ∧
      ∀ before name after e, config.strategies = before ++ name :: after →
        (∀ earlier ∈ before, ∀ e, ¬registry.Fails ⟨g, config⟩ earlier e) →
          registry.Fails ⟨g, config⟩ name e →
            ∃ summaries left,
              runAll registry ⟨g, config⟩ (.ofStore store none) before = (.ok summaries, left) ∧
              ∀ other : Registry,
                (∀ n ∈ before ++ [name], other.find? n = registry.find? n) →
                (∀ n ∈ after, other.contains n = true) →
                  run other config s (.ofStore store none) = (.error e, left)
  /-- There is no other reason to end early. -/
  completes : (∀ name ∈ config.strategies, registry.contains name = true) →
    ∀ g build, s.buildWithReport = .ok (g, build) →
      (∀ name ∈ config.strategies, ∀ e, ¬registry.Fails ⟨g, config⟩ name e) →
        ∃ report, (run registry config s (.ofStore store none)).1 = .ok report

/-- **Errors of a batch.** An unknown name comes before a repeated key, and a repeated key before
the failure of a strategy; of several errors of one kind the first counts. A strategy that fails
leaves nothing in the store, even if it has scored profiles by then, and keeps those behind it from
being made or run. -/
theorem ends_in_order (registry : Registry) (config : Config) (s : Snapshot) (store : Store)
    (hrows : s.rows.length ≤ Graph.arenaCapacity)
    (hreferences : s.references.length ≤ Graph.arenaCapacity) :
    Ends registry config s store where
  unknown before name after hstrategies hbefore hname :=
    run_of_unknown hstrategies hbefore hname s _
  repeated hknown hkeys := by
    obtain ⟨e, he⟩ := (Snapshot.exists_error_iff hrows hreferences).mpr hkeys
    obtain ⟨id, hid, rfl⟩ := Snapshot.firstRepeated_of_error hrows hreferences he
    exact ⟨id, hid, run_of_build_error hknown he _⟩
  failed hknown hkeys := by
    cases hbuild : s.buildWithReport with
    | error e => exact absurd hkeys ((Snapshot.exists_error_iff hrows hreferences).mp ⟨e, hbuild⟩)
    | ok built =>
      obtain ⟨g, build⟩ := built
      refine ⟨g, build, rfl, fun before name after e hstrategies hbefore hfails ↦ ?_⟩
      have hsplit : ∀ n ∈ before ++ name :: after, registry.contains n = true :=
        hstrategies ▸ hknown
      obtain ⟨sessions, hsessions⟩ := exists_evaluate
        (fun n hn ↦ hsplit n (List.mem_append_left _ hn)) hbefore
      have hleft := runAll_of_evaluate hsessions (.ofStore store none)
      rw [Sink.writeAll_open rfl] at hleft
      refine ⟨_, _, hleft, fun other hfind hafter ↦ ?_⟩
      -- the other registry knows the names as well, and it cannot be told apart where it is asked
      have hother : ∀ n ∈ config.strategies, other.contains n = true := by
        intro n hn
        rw [hstrategies, List.append_cons, List.mem_append] at hn
        rcases hn with hn | hn
        · rw [Registry.contains, hfind n hn, ← Registry.contains]
          exact hsplit n (by rw [List.append_cons]; exact List.mem_append_left _ hn)
        · exact hafter n hn
      have hcongr : runAll other ⟨g, config⟩ (.ofStore store none) before = _ :=
        (runAll_congr (fun n hn ↦ hfind n (List.mem_append_left _ hn)) _).trans hleft
      have hrun := runAll_append_of_fails hcongr
        (hfails.congr (hfind name (List.mem_append_right _ List.mem_cons_self))) after
      rw [run_of_build hother hbuild, hstrategies, hrun]
      rfl
  completes hknown g build hbuild hsucceeds := by
    obtain ⟨sessions, hsessions⟩ := exists_evaluate hknown hsucceeds
    rw [run_of_build hknown hbuild, runAll_of_evaluate hsessions, Sink.writeAll_open rfl]
    exact ⟨_, rfl⟩

end Batch

/-- A strategy that scores a listing for a profile and then gives up. -/
def Strategy.giveUp (name : String) (profile listing : ElementId) : Strategy where
  name
  initiate := .ok fun tally ↦
    (.error (.invalidState (.reported "scripted")), tally.add profile listing .one true)

/-- Two strategies that work, one that gives up after scoring a profile of theirs, and one that
cannot be made. -/
def Registry.flawed : Registry :=
  (pair.register "third" fun _ ↦ .ok (.giveUp "third" (.name "b") (.name "z"))).register "fourth"
    fun _ ↦ .error (.invalidArgument (.reported "constructor refused"))

theorem Batch.ends_in_order_flawed :
    let config : Config := { strategies := ["first", "third", "fourth", "second"] }
    let misspelt : Config := { strategies := ["first", "fifth", "third", "sixth"] }
    let sink : Sink := .ofStore (Store.empty.insert (.name "b") ⟨.name "w", .one⟩) none
    run .flawed misspelt Snapshot.repetitive sink = (.error (.unknownStrategy "fifth"), sink) ∧
      run .flawed config Snapshot.repetitive sink
        = (.error (.duplicateId (Domain.categoryId 3)), sink) ∧
      ∃ left, run .flawed config {} sink
          = (.error (.invalidState (.reported "scripted")), left) ∧
        left.store.recommendationsFor (.name "a") = [⟨.name "x", .one⟩] ∧
        left.store.recommendationsFor (.name "b") = [⟨.name "x", .one⟩] ∧ left.asked = 5 := by
  intro config misspelt sink
  have hmisspelt := ends_in_order .flawed misspelt .repetitive
    (Store.empty.insert (.name "b") ⟨.name "w", .one⟩) (by decide) (by decide)
  have hrepetitive := ends_in_order .flawed config .repetitive
    (Store.empty.insert (.name "b") ⟨.name "w", .one⟩) (by decide) (by decide)
  have hempty := ends_in_order .flawed config {}
    (Store.empty.insert (.name "b") ⟨.name "w", .one⟩) (by decide) (by decide)
  have hknown : ∀ name ∈ config.strategies, Registry.flawed.contains name = true := by
    decide +kernel
  refine ⟨hmisspelt.unknown ["first"] "fifth" ["third", "sixth"] rfl (by decide +kernel)
    (by decide +kernel), ?_, ?_⟩
  · obtain ⟨id, -, hrun⟩ := hrepetitive.repeated hknown fun hkeys ↦
      absurd hkeys.categories (by decide)
    have hfirst : (run .flawed config Snapshot.repetitive sink).1.map (·.build)
        = .error (.duplicateId (Domain.categoryId 3)) := by decide +kernel
    rw [hrun] at hfirst
    rw [hrun, Except.error.inj hfirst]
  · obtain ⟨g, build, hbuild, hfailed⟩ := hempty.failed hknown ⟨by decide, by decide, by decide,
      by decide⟩
    obtain rfl : Graph.empty = g := congrArg (·.1) (Except.ok.inj hbuild)
    have hfirst : ∀ earlier ∈ ["first"], ∀ e,
        ¬Registry.flawed.Fails ⟨.empty, config⟩ earlier e := by
      intro earlier hearlier e hfails
      obtain rfl := List.mem_singleton.mp hearlier
      have hruns : (runAll .flawed ⟨.empty, config⟩ sink ["first"]).1.map (·.length) = .ok 1 := by
        decide +kernel
      rw [hfails.runAll_cons] at hruns
      cases hruns
    have hthird : Registry.flawed.Fails ⟨.empty, config⟩ "third"
        (.invalidState (.reported "scripted")) := .unfinished rfl rfl rfl rfl
    obtain ⟨summaries, left, hleft, hrun⟩ :=
      hfailed ["first"] "third" ["fourth", "second"] _ rfl hfirst hthird
    have hstored : ∀ profile, left.store.recommendationsFor profile
        = (runAll .flawed ⟨.empty, config⟩ sink ["first"]).2.store.recommendationsFor profile :=
      fun profile ↦ by rw [hleft]
    have hasked : (runAll .flawed ⟨.empty, config⟩ sink ["first"]).2.asked = 5 := by decide +kernel
    rw [hleft] at hasked
    exact ⟨left, hrun .flawed (fun _ _ ↦ rfl) (by decide +kernel),
      (hstored _).trans (by decide +kernel), (hstored _).trans (by decide +kernel), hasked⟩

end BookmarkGraph
