import BookmarkGraph.Recommend.Registry

/-!
# Batches

A batch runs the configured strategies in their order over the graph of one snapshot. All names are
checked before anything is built, and the first failure ends the batch.
-/

namespace BookmarkGraph

/-- The outcome of a batch. -/
structure BatchReport where
  /-- What happened while the graph was built. -/
  build : BuildReport
  /-- The outcome of each strategy, in the order of running. -/
  strategies : List RunSummary
deriving DecidableEq, Repr

/-- The number of listings written by all strategies. -/
def BatchReport.entriesWritten (report : BatchReport) : Nat :=
  report.strategies.foldr (fun summary n ↦ summary.entriesWritten + n) 0

namespace Batch

/-- Runs the strategies of the given names one after the other, up to the first failure. -/
def runAll (registry : Registry) (context : Context) (sink : Sink) :
    List String → Except GraphError (List RunSummary) × Sink
  | [] => (.ok [], sink)
  | name :: rest =>
    match registry.create name context with
    | .error e => (.error e, sink)
    | .ok session =>
      match session.recommend sink with
      | (.error e, _, sink) => (.error e, sink)
      | (.ok summary, _, sink) =>
        let (summaries, sink) := runAll registry context sink rest
        (summaries.map (summary :: ·), sink)

/-- Runs the strategies of a configuration over a snapshot and hands their results to a sink. -/
def run (registry : Registry) (config : Config) (snapshot : Snapshot) (sink : Sink) :
    Except GraphError BatchReport × Sink :=
  match config.strategies.find? fun name ↦ !registry.contains name with
  | some unknown => (.error (.unknownStrategy unknown), sink)
  | none =>
    match snapshot.buildWithReport with
    | .error e => (.error e, sink)
    | .ok (graph, build) =>
      let (summaries, sink) := runAll registry ⟨graph, config⟩ sink config.strategies
      (summaries.map fun strategies ↦ ⟨build, strategies⟩, sink)

end Batch

end BookmarkGraph
