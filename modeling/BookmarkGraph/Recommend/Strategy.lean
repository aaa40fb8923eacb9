import BookmarkGraph.Config.Basic
import BookmarkGraph.Graph.Basic
import BookmarkGraph.Recommend.Store

/-!
# Strategies

A strategy prepares itself and then fills one score table per profile. A session runs a strategy:
it empties the scores, lets the strategy prepare and score, ranks every table and hands the ranked
lists over to a sink, each one in the place of what the profile had.

## Contents

* `Tally`: the scores under construction and the number of failures;
* `Strategy`: what a strategy does, `Scoring` being its work on a tally;
* `Session`: a strategy that is being run; `Session.recommend` is a whole run.
-/

namespace BookmarkGraph

/-- What every strategy is made from. -/
structure Context where
  /-- The graph to recommend over. -/
  graph : Graph
  /-- The settings of the run. -/
  config : Config

/-- The scores that a strategy has collected, and how often it gave up on a profile. -/
structure Tally where
  /-- Profiles with their score tables. -/
  scores : ProfileScores
  /-- The number of failures; a profile that fails repeatedly counts every time. -/
  failures : Nat
deriving DecidableEq, Repr

namespace Tally

def empty : Tally := ⟨.empty, 0⟩

instance : Inhabited Tally := ⟨empty⟩

/-- Scores a listing for a profile. -/
def add (t : Tally) (profile listing : ElementId) (score : Double) (accumulate : Bool) : Tally :=
  { t with
    scores := ProfileScores.entry t.scores profile fun table ↦
      ScoreTable.add table listing score accumulate }

/-- Puts a table in the place of the one of a profile. -/
def assign (t : Tally) (profile : ElementId) (table : ScoreTable) : Tally :=
  { t with scores := ProfileScores.entry t.scores profile fun _ ↦ table }

/-- Records that a profile could not be scored. The profile counts as processed; scores that it has
already stay. -/
def fail (t : Tally) (profile : ElementId) : Tally where
  scores := ProfileScores.entry t.scores profile fun table ↦ table
  failures := t.failures + 1

/-- Scores profiles one by one; a profile whose scoring fails does not disturb the others. -/
def fill (score : ElementId → Except GraphError ScoreTable) (profiles : List ElementId)
    (t : Tally) : Tally :=
  profiles.foldl (fun t profile ↦
    match score profile with
    | .ok table => t.assign profile table
    | .error _ => t.fail profile) t

end Tally

/-- Work on a tally, which keeps what was done before a failure. -/
abbrev Scoring := Tally → Except GraphError Unit × Tally

/-- Does nothing to a tally. -/
def Scoring.idle : Scoring := fun t ↦ (.ok (), t)

/-- A strategy, made for one graph and one configuration. -/
structure Strategy where
  /-- The name under which the strategy reports. -/
  name : String
  /-- Prepares the strategy and gives the scoring that it is prepared for. -/
  initiate : Except GraphError Scoring
  /-- The scoring of a strategy that has not been prepared. -/
  unprepared : Scoring := .idle

/-- The outcome of a run. -/
structure RunSummary where
  /-- The name of the strategy. -/
  strategy : String
  /-- The number of profiles whose lists were replaced. -/
  profiles : Nat := 0
  /-- The number of profiles that received a listing. -/
  profilesWithResults : Nat := 0
  /-- The number of listings written. -/
  entriesWritten : Nat := 0
  /-- The number of failures. -/
  failedProfiles : Nat
deriving DecidableEq, Repr

/-- Counts a list that was written. -/
def RunSummary.count (summary : RunSummary) (list : RankedList) : RunSummary :=
  { summary with
    profiles := summary.profiles + 1
    profilesWithResults := summary.profilesWithResults + if list.listings.isEmpty then 0 else 1
    entriesWritten := summary.entriesWritten + list.listings.length }

/-- A strategy that is being run. -/
structure Session where
  /-- The strategy. -/
  strategy : Strategy
  /-- How many listings a profile keeps at most. -/
  topN : Nat
  /-- The scoring that the strategy is ready for. -/
  scoring : Scoring
  /-- The scores so far. -/
  tally : Tally

namespace Session

/-- A session before its first run. -/
def start (strategy : Strategy) (config : Config) : Session :=
  ⟨strategy, config.topN.toNat, strategy.unprepared, .empty⟩

/-- Lets the strategy prepare. -/
def initiate (s : Session) : Except GraphError Unit × Session :=
  match s.strategy.initiate with
  | .error e => (.error e, s)
  | .ok scoring => (.ok (), { s with scoring })

/-- Lets the strategy score. -/
def score (s : Session) : Except GraphError Unit × Session :=
  let (answer, tally) := s.scoring s.tally
  (answer, { s with tally })

/-- The best listings of every processed profile. -/
def ranked (s : Session) : List RankedList := s.tally.scores.ranked s.topN

/-- Hands lists over one after the other, up to the first write that is refused. -/
def replaceAll (summary : RunSummary) (sink : Sink) :
    List RankedList → Except GraphError RunSummary × Sink
  | [] => (.ok summary, sink)
  | list :: rest =>
    match sink.writeAll list.writes with
    | (.error e, sink) => (.error e, sink)
    | (.ok (), sink) => replaceAll (summary.count list) sink rest

/-- Puts the ranked list of every processed profile in the place of what it had. -/
def persist (s : Session) (name : String) (sink : Sink) : Except GraphError RunSummary × Sink :=
  replaceAll { strategy := name, failedProfiles := s.tally.failures } sink s.ranked

/-- A whole run: empties the scores, prepares, scores and hands over the results. -/
def recommend (s : Session) (sink : Sink) : Except GraphError RunSummary × Session × Sink :=
  match { s with tally := .empty }.initiate with
  | (.error e, s) => (.error e, s, sink)
  | (.ok (), s) =>
    match s.score with
    | (.error e, s) => (.error e, s, sink)
    | (.ok (), s) =>
      let (answer, sink) := s.persist s.strategy.name sink
      (answer, s, sink)

end Session

end BookmarkGraph
