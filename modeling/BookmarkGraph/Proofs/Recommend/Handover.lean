import BookmarkGraph.Recommend.Batch
import BookmarkGraph.Proofs.Outcome

/-!
# A batch is a sequence of writes

No strategy sees the store that its results go to, so a batch falls into two parts. `Batch.evaluate`
gives the sessions of its strategies after their runs, and `Batch.writes` lists, session by session
and profile by profile, the writes that hand their results over. `Batch.run_of_ok` says that a batch
is these writes, asked for in turn: what it does to a sink is `Sink.writeAll`, for every sink.

A gate is therefore met by a list of writes and not by three nested loops. `Batch.run_cut` follows:
where a gate refuses a write, the batch ends with the writes before it.
-/

namespace BookmarkGraph

/-! ## Writes at a gate -/

namespace Sink

variable {sink : Sink} {ws : List Write}

theorem writeAll_append (sink : Sink) (first second : List Write) :
    sink.writeAll (first ++ second) = match sink.writeAll first with
      | (.error e, sink) => (.error e, sink)
      | (.ok (), sink) => sink.writeAll second := by
  induction first generalizing sink with
  | nil => rfl
  | cons w rest ih =>
    rw [List.cons_append, writeAll, writeAll]
    rcases sink.write w with ⟨e | ⟨⟩, sink'⟩
    · rfl
    · exact ih sink'

theorem write_granted (h : sink.refuses ≠ some sink.asked) (w : Write) :
    sink.write w = (.ok (), ⟨sink.store.apply w, sink.refuses, sink.asked + 1⟩) := by
  rw [write, if_neg h]

theorem write_refused (h : sink.refuses = some sink.asked) (w : Write) :
    sink.write w
      = (.error (.store "write refused"), ⟨sink.store, sink.refuses, sink.asked + 1⟩) := by
  rw [write, if_pos h]

/-- Writes of which the gate refuses none all reach the store. -/
theorem writeAll_granted
    (h : ∀ n, sink.refuses = some n → n < sink.asked ∨ sink.asked + ws.length ≤ n) :
    sink.writeAll ws
      = (.ok (), ⟨ws.foldl Store.apply sink.store, sink.refuses, sink.asked + ws.length⟩) := by
  induction ws generalizing sink with
  | nil => rfl
  | cons w rest ih =>
    have hopen : sink.refuses ≠ some sink.asked := by
      intro heq
      have hasked := h _ heq
      rw [List.length_cons] at hasked
      omega
    have hrest : ∀ n, sink.refuses = some n →
        n < sink.asked + 1 ∨ sink.asked + 1 + rest.length ≤ n := by
      intro n hn
      have hasked := h n hn
      rw [List.length_cons] at hasked
      omega
    rw [writeAll, write_granted hopen, List.foldl_cons, List.length_cons, Nat.add_comm rest.length,
      ← Nat.add_assoc]
    exact ih hrest

theorem writeAll_open (h : sink.refuses = none) (ws : List Write) :
    sink.writeAll ws
      = (.ok (), ⟨ws.foldl Store.apply sink.store, none, sink.asked + ws.length⟩) := by
  rw [← h]
  refine writeAll_granted fun n hn ↦ ?_
  rw [h] at hn
  exact absurd hn (Option.some_ne_none n).symm

/-- A refused write ends a sequence of writes with what went before it. -/
theorem writeAll_refused {n : Nat} (hrefuses : sink.refuses = some n) (hle : sink.asked ≤ n)
    (hlt : n < sink.asked + ws.length) :
    sink.writeAll ws = (.error (.store "write refused"),
      ⟨(ws.take (n - sink.asked)).foldl Store.apply sink.store, sink.refuses, n + 1⟩) := by
  have hplace : n - sink.asked < ws.length := by omega
  have hlength : (ws.take (n - sink.asked)).length = n - sink.asked :=
    List.length_take_of_le (Nat.le_of_lt hplace)
  have hasked : sink.asked + (n - sink.asked) = n := by omega
  have hbefore : sink.writeAll (ws.take (n - sink.asked))
      = (.ok (), ⟨(ws.take (n - sink.asked)).foldl Store.apply sink.store, sink.refuses, n⟩) := by
    rw [writeAll_granted, hlength, hasked]
    intro m hm
    rw [hrefuses] at hm
    rw [hlength, hasked, Option.some.inj hm]
    exact .inr (Nat.le_refl m)
  have hat : ∀ w, write ⟨(ws.take (n - sink.asked)).foldl Store.apply sink.store, sink.refuses, n⟩ w
      = (.error (.store "write refused"),
        ⟨(ws.take (n - sink.asked)).foldl Store.apply sink.store, sink.refuses, n + 1⟩) :=
    write_refused hrefuses
  -- the writes in front of the gate's number, the one that it refuses, and the rest
  conv_lhs => rw [← List.take_append_drop (n - sink.asked) ws]
  rw [writeAll_append, hbefore, List.drop_eq_getElem_cons hplace]
  simp only [writeAll, hat]

end Sink

/-! ## Sessions -/

namespace Session

/-- The writes that hand over the ranked lists of a session. -/
def writes (s : Session) : List Write := s.ranked.flatMap RankedList.writes

/-- What a session reports once its ranked lists are written. -/
def summary (s : Session) : RunSummary :=
  s.ranked.foldl RunSummary.count
    { strategy := s.strategy.name, failedProfiles := s.tally.failures }

/-- The session after a run. The sink is the one that never stands in the way. -/
def evaluate (s : Session) : Except GraphError Session :=
  match s.recommend (.ofStore .empty none) with
  | (.error e, _, _) => .error e
  | (.ok _, t, _) => .ok t

theorem replaceAll_eq (summary : RunSummary) (sink : Sink) (lists : List RankedList) :
    replaceAll summary sink lists
      = ((sink.writeAll (lists.flatMap RankedList.writes)).1.map fun _ ↦
          lists.foldl RunSummary.count summary,
        (sink.writeAll (lists.flatMap RankedList.writes)).2) := by
  induction lists generalizing summary sink with
  | nil => rfl
  | cons list rest ih =>
    rw [replaceAll, List.flatMap_cons, Sink.writeAll_append, List.foldl_cons]
    rcases sink.writeAll list.writes with ⟨e | ⟨⟩, sink'⟩
    · rfl
    · exact ih (summary.count list) sink'

/-- A run whose strategy prepares and scores comes down to the writes of the ranked lists. -/
theorem recommend_of_scoring {s : Session} {scoring : Scoring} {tally : Tally}
    (hinitiate : s.strategy.initiate = .ok scoring) (hscore : scoring .empty = (.ok (), tally))
    (sink : Sink) :
    s.recommend sink
      = ((sink.writeAll { s with scoring, tally }.writes).1.map fun _ ↦
          { s with scoring, tally }.summary,
        { s with scoring, tally }, (sink.writeAll { s with scoring, tally }.writes).2) := by
  simp only [recommend, initiate, hinitiate, score, hscore, persist, replaceAll_eq]
  rfl

/-- A run fails before anything is written, or its strategy prepares and scores. -/
theorem recommend_cases (s : Session) :
    (∃ e t, ∀ sink, s.recommend sink = (.error e, t, sink)) ∨
      ∃ scoring tally, s.strategy.initiate = .ok scoring ∧ scoring .empty = (.ok (), tally) := by
  cases hinitiate : s.strategy.initiate with
  | error e =>
    refine .inl ⟨e, { s with tally := .empty }, fun sink ↦ ?_⟩
    rw [recommend, initiate, hinitiate]
  | ok scoring =>
    rcases hscore : scoring .empty with ⟨e | ⟨⟩, tally⟩
    · refine .inl ⟨e, { s with scoring, tally }, fun sink ↦ ?_⟩
      simp only [recommend, initiate, hinitiate, score, hscore]
    · exact .inr ⟨scoring, tally, rfl, hscore⟩

theorem evaluate_of_scoring {s : Session} {scoring : Scoring} {tally : Tally}
    (hinitiate : s.strategy.initiate = .ok scoring) (hscore : scoring .empty = (.ok (), tally)) :
    s.evaluate = .ok { s with scoring, tally } := by
  rw [evaluate, recommend_of_scoring hinitiate hscore, Sink.writeAll_open rfl]
  rfl

variable {s t : Session}

/-- A run of a session that can be evaluated asks the sink for the writes of the result. -/
theorem recommend_of_evaluate (h : s.evaluate = .ok t) :
    t.topN = s.topN ∧ ∀ sink, s.recommend sink
      = ((sink.writeAll t.writes).1.map fun _ ↦ t.summary, t, (sink.writeAll t.writes).2) := by
  rcases s.recommend_cases with ⟨e, u, hfails⟩ | ⟨scoring, tally, hinitiate, hscore⟩
  · rw [evaluate, hfails] at h
    exact nomatch h
  · rw [evaluate_of_scoring hinitiate hscore] at h
    rw [← Except.ok.inj h]
    exact ⟨rfl, recommend_of_scoring hinitiate hscore⟩

theorem evaluate_of_recommend {sink : Sink} {summary : RunSummary}
    (h : (s.recommend sink).1 = .ok summary) : ∃ t, s.evaluate = .ok t := by
  rcases s.recommend_cases with ⟨e, u, hfails⟩ | ⟨scoring, tally, hinitiate, hscore⟩
  · rw [hfails] at h
    exact nomatch h
  · exact ⟨_, evaluate_of_scoring hinitiate hscore⟩

end Session

/-! ## Batches -/

namespace Batch

/-- The sessions of the strategies of the given names after their runs. -/
def evaluate (registry : Registry) (context : Context) (names : List String) :
    Except GraphError (List Session) :=
  names.mapM fun name ↦ registry.create name context >>= Session.evaluate

/-- The writes of sessions, one session after the other. Every session goes through its profiles in
the order in which it has processed them; it clears the list of a profile and then inserts what it
has ranked, the best listing first. -/
def writes (sessions : List Session) : List Write :=
  sessions.flatMap fun session ↦ session.ranked.flatMap fun list ↦
    .clear list.profile :: list.listings.map (.insert list.profile)

variable {registry : Registry} {context : Context} {names : List String}

theorem writes_cons (session : Session) (rest : List Session) :
    writes (session :: rest) = session.writes ++ writes rest := rfl

theorem runAll_of_evaluate {sessions : List Session}
    (h : evaluate registry context names = .ok sessions) (sink : Sink) :
    runAll registry context sink names
      = ((sink.writeAll (writes sessions)).1.map fun _ ↦ sessions.map Session.summary,
        (sink.writeAll (writes sessions)).2) := by
  induction names generalizing sessions sink with
  | nil =>
    rw [← Except.ok.inj h]
    rfl
  | cons name rest ih =>
    rw [evaluate, List.mapM_cons] at h
    obtain ⟨t, ht, h⟩ := bind_eq_ok.mp h
    obtain ⟨session, hcreate, hevaluate⟩ := bind_eq_ok.mp ht
    obtain ⟨later, hlater, h⟩ := bind_eq_ok.mp h
    have hrecommend := (Session.recommend_of_evaluate hevaluate).2
    rw [← Except.ok.inj h, writes_cons, Sink.writeAll_append]
    simp only [runAll, hcreate, hrecommend]
    rcases sink.writeAll t.writes with ⟨e | ⟨⟩, sink'⟩
    · rfl
    · simp only [Except.map, ih hlater sink']
      rcases sink'.writeAll (writes later) with ⟨e | ⟨⟩, sink''⟩ <;> rfl

theorem evaluate_of_runAll {sink : Sink} {summaries : List RunSummary}
    (h : (runAll registry context sink names).1 = .ok summaries) :
    ∃ sessions, evaluate registry context names = .ok sessions := by
  induction names generalizing sink summaries with
  | nil => exact ⟨[], rfl⟩
  | cons name rest ih =>
    rw [runAll] at h
    cases hcreate : registry.create name context with
    | error e => simp [hcreate] at h
    | ok session =>
      rcases hrun : session.recommend sink with ⟨e | summary, session', sink'⟩
      · simp [hcreate, hrun] at h
      · simp only [hcreate, hrun] at h
        obtain ⟨t, ht⟩ := Session.evaluate_of_recommend (congrArg (·.1) hrun)
        cases hlater : (runAll registry context sink' rest).1 with
        | error e => simp [hlater, Except.map] at h
        | ok later =>
          obtain ⟨sessions, hsessions⟩ := ih hlater
          refine ⟨t :: sessions, ?_⟩
          rw [evaluate, List.mapM_cons, hcreate, ok_bind, ht, ok_bind]
          exact bind_eq_ok.mpr ⟨sessions, hsessions, rfl⟩

section Known

variable {config : Config} {s : Snapshot}

theorem find?_unknown (h : ∀ name ∈ names, registry.contains name = true) :
    (names.find? fun name ↦ !registry.contains name) = none := by
  rw [List.find?_eq_none]
  intro name hname
  rw [h name hname]
  decide

theorem run_of_build_error (hknown : ∀ name ∈ config.strategies, registry.contains name = true)
    {e : GraphError} (hbuild : s.buildWithReport = .error e) (sink : Sink) :
    run registry config s sink = (.error e, sink) := by
  simp only [run, find?_unknown hknown, hbuild]

theorem run_of_build (hknown : ∀ name ∈ config.strategies, registry.contains name = true)
    {g : Graph} {build : BuildReport} (hbuild : s.buildWithReport = .ok (g, build)) (sink : Sink) :
    run registry config s sink
      = ((runAll registry ⟨g, config⟩ sink config.strategies).1.map fun strategies ↦
          ⟨build, strategies⟩,
        (runAll registry ⟨g, config⟩ sink config.strategies).2) := by
  simp only [run, find?_unknown hknown, hbuild]

end Known

/-- A batch that succeeds on one sink asks every sink for the same writes in turn, and reports the
same where none of them is refused. -/
theorem run_of_ok {config : Config} {s : Snapshot} {sink : Sink} {report : BatchReport}
    (h : (run registry config s sink).1 = .ok report) :
    ∃ g sessions, s.buildWithReport = .ok (g, report.build) ∧
      evaluate registry ⟨g, config⟩ config.strategies = .ok sessions ∧
      report.strategies = sessions.map Session.summary ∧
      ∀ sink, run registry config s sink
        = ((sink.writeAll (writes sessions)).1.map fun _ ↦ report,
          (sink.writeAll (writes sessions)).2) := by
  rw [run] at h
  cases hnames : config.strategies.find? fun name ↦ !registry.contains name with
  | some unknown => simp [hnames] at h
  | none =>
    cases hbuild : s.buildWithReport with
    | error e => simp [hnames, hbuild] at h
    | ok built =>
      obtain ⟨g, build⟩ := built
      simp only [hnames, hbuild] at h
      obtain ⟨summaries, hall, hreport⟩ := map_eq_ok.mp h
      obtain ⟨sessions, hsessions⟩ := evaluate_of_runAll hall
      rw [runAll_of_evaluate hsessions] at hall
      obtain ⟨-, -, rfl⟩ := map_eq_ok.mp hall
      subst hreport
      refine ⟨g, sessions, rfl, hsessions, rfl, fun sink ↦ ?_⟩
      simp only [run, hnames, hbuild, runAll_of_evaluate hsessions]
      rcases sink.writeAll (writes sessions) with ⟨e | ⟨⟩, sink'⟩ <;> rfl

/-- **A refused write cuts a batch.** Take a batch that succeeds on a store that refuses nothing,
and the writes of its sessions. On any sink the batch does what asking for these writes in turn
does. On a store that refuses one of them, the batch fails with the error of the store, which holds
the effect of the writes before and was asked for no write after; on a store that refuses a later
write than the last, the batch reports what it reports without a gate. -/
theorem run_cut {config : Config} {s : Snapshot} {store : Store} {report : BatchReport}
    (h : (run registry config s (.ofStore store none)).1 = .ok report) :
    ∃ g sessions, s.buildWithReport = .ok (g, report.build) ∧
      evaluate registry ⟨g, config⟩ config.strategies = .ok sessions ∧
      (∀ sink, (run registry config s sink).2 = (sink.writeAll (writes sessions)).2) ∧
      run registry config s (.ofStore store none) = (.ok report,
        ⟨(writes sessions).foldl Store.apply store, none, (writes sessions).length⟩) ∧
      ∀ n, run registry config s (.ofStore store (some n)) =
        if n < (writes sessions).length then (.error (.store "write refused"),
          ⟨((writes sessions).take n).foldl Store.apply store, some n, n + 1⟩)
        else (.ok report,
          ⟨(writes sessions).foldl Store.apply store, some n, (writes sessions).length⟩) := by
  obtain ⟨g, sessions, hbuild, hsessions, -, hrun⟩ := run_of_ok h
  refine ⟨g, sessions, hbuild, hsessions, fun sink ↦ congrArg (·.2) (hrun sink), ?_, fun n ↦ ?_⟩
  · rw [hrun, Sink.writeAll_open rfl, Sink.ofStore, Nat.zero_add]
    rfl
  · rw [hrun]
    split
    · rename_i hlt
      rw [Sink.writeAll_refused rfl (Nat.zero_le n) (by rwa [Sink.ofStore, Nat.zero_add])]
      rfl
    · rename_i hle
      have hpasses : ∀ m, (Sink.ofStore store (some n)).refuses = some m →
          m < 0 ∨ 0 + (writes sessions).length ≤ m := by
        intro m hm
        rw [← Option.some.inj hm, Nat.zero_add]
        exact .inr (Nat.not_lt.mp hle)
      rw [Sink.writeAll_granted hpasses, Sink.ofStore, Nat.zero_add]
      rfl

end Batch

/-- A strategy that scores one listing for each of some profiles and gives up on another one. -/
def Strategy.praise (name : String) (listing : ElementId) (profiles : List ElementId)
    (lost : ElementId) : Strategy where
  name
  initiate := .ok fun tally ↦
    (.ok (), (profiles.foldl (fun t profile ↦ t.add profile listing .one true) tally).fail lost)

/-- Two strategies that have a profile in common. -/
def Registry.pair : Registry :=
  let first := Strategy.praise "first" (.name "x") [.name "a", .name "b"] (.name "c")
  let second := Strategy.praise "second" (.name "y") [.name "b"] (.name "e")
  (empty.register "first" fun _ ↦ .ok first).register "second" fun _ ↦ .ok second

theorem Batch.run_cut_pair :
    let config : Config := { strategies := ["first", "second"] }
    let store := Store.empty.insert (.name "b") ⟨.name "z", .one⟩
    let report : BatchReport := ⟨{},
      [{ strategy := "first", profiles := 3, profilesWithResults := 2, entriesWritten := 2,
         failedProfiles := 1 },
       { strategy := "second", profiles := 2, profilesWithResults := 1, entriesWritten := 1,
         failedProfiles := 1 }]⟩
    (run .pair config {} (.ofStore store none)).1 = .ok report ∧
      (run .pair config {} (.ofStore store (some 3))).1 = .error (.store "write refused") ∧
      (run .pair config {} (.ofStore store (some 3))).2.asked = 4 ∧
      (run .pair config {} (.ofStore store (some 8))).1 = .ok report := by
  intro config store report
  have h : (run .pair config {} (.ofStore store none)).1 = .ok report := by decide +kernel
  obtain ⟨g, sessions, -, -, -, hopen, hgate⟩ := run_cut h
  have hlength : (writes sessions).length = 8 := by
    have hasked : (run .pair config {} (.ofStore store none)).2.asked = 8 := by decide +kernel
    rwa [hopen] at hasked
  have hrefused := hgate 3
  have hpassed := hgate 8
  rw [hlength, if_pos (by decide)] at hrefused
  rw [hlength, if_neg (by decide)] at hpassed
  exact ⟨h, congrArg (·.1) hrefused, congrArg (·.2.asked) hrefused, congrArg (·.1) hpassed⟩

end BookmarkGraph
