import BookmarkGraph.Command.Arguments
import BookmarkGraph.Command.Files
import BookmarkGraph.Command.LogFilter
import BookmarkGraph.Command.Steps
import BookmarkGraph.Json.Element
import BookmarkGraph.Recommend.Batch

/-!
# Running a command

A command reads the settings, checks the filter of log messages and then works on a snapshot. What
it finds is a `Finding`, which is written out elsewhere.
-/

namespace BookmarkGraph

/-- What a command finds. -/
inductive Finding where
  /-- Element counts. -/
  | stats (stats : GraphStats)
  /-- The elements that a traversal delivers: ids, or property maps where they are projected. -/
  | elements (values : List Json)
  /-- The outcome of a batch, what it left in the store, and the file to write it to. -/
  | recommendations (report : BatchReport) (lists : List RankedList) (output : Option String)
  /-- The names of the strategies. -/
  | strategies (names : List String)
deriving Repr

/-- Why a command fails. -/
inductive CommandError where
  /-- The library reports an error. -/
  | library (error : GraphError)
  /-- The file for the results cannot be created. -/
  | output (fault : FileFault)
  /-- A part of the filter of log messages ends inside a character, which ends the run without a
  word about it. -/
  | misalignedFilter
deriving DecidableEq, Repr

/-- The wording of a failure, if it has one. -/
def CommandError.message? : CommandError → Option String
  | library error => some error.message
  | output fault => some fault.message
  | misalignedFilter => none

/-- The failure that a fault of the filter of log messages leads to. -/
def CommandError.ofFilter : LogFilter.Fault → CommandError
  | .malformed => .library (.invalidArgument .logFilter)
  | .misaligned => .misalignedFilter

namespace Command

def loadGraph (files : Files) (path : String) : Except GraphError Graph := do
  (← Snapshot.load files path).build

/-- An element in the results of a traversal. -/
def showElement (g : Graph) : Element → Except GraphError Json
  | .properties props => .ok props.toJson
  | other => do
    match ← g.idOf other with
    | some id => return id.toJson
    | none => return .null

/-- The results of a traversal that starts from the given ids, or from every vertex if there are
none. -/
def traversal (g : Graph) (start : List String) (steps : String) :
    Except GraphError (List Json) := do
  let q : Query :=
    if start.isEmpty then Query.empty.vertices g
    else Query.empty.ofIds g (start.map fun text ↦ StepLanguage.id text.toList)
  let q ← StepLanguage.extend q steps
  (← (q.toList g).1).mapM (showElement g)

/-- Settings with the changes that the command line asks for. -/
def adjust (config : Config) (options : RecommendOptions) : Config where
  topN := options.topN.getD config.topN
  weighting := options.weighting.getD config.weighting
  strategies := if options.strategies.isEmpty then config.strategies else options.strategies
  respectVisibility := config.respectVisibility && !options.ignoreVisibility
  logLevel := config.logLevel

/-- Runs strategies over the snapshot in a file. -/
def recommendations (files : Files) (config : Config) (path : String)
    (options : RecommendOptions) : Except CommandError Finding := do
  let ran : Except GraphError (BatchReport × Store) := do
    let snapshot ← Snapshot.load files path
    let sink : Sink := .ofStore .empty none
    let (report, sink) := Batch.run .builtins (adjust config options) snapshot sink
    return (← report, sink.store)
  let (report, store) ← ran.mapError .library
  match options.output with
  | none => return .recommendations report store.contents none
  | some path =>
    (files.create path).mapError .output
    return .recommendations report store.contents (some path)

def run (files : Files) (config : Config) : Command → Except CommandError Finding
  | .stats path => do
    let g ← (loadGraph files path).mapError .library
    return .stats g.stats
  | .traverse path start steps => do
    let g ← (loadGraph files path).mapError .library
    return .elements (← (traversal g start steps).mapError .library)
  | .recommend path options => recommendations files config path options
  | .strategies => return .strategies Registry.builtins.names

end Command

/-- Answers a request. Without a file of settings of its own it uses the one at `standard`. -/
def Request.run (files : Files) (standard : Option String) (request : Request) :
    Except CommandError Finding := do
  let config ← (Config.load files (request.config.or standard)).mapError .library
  (LogFilter.check (request.logLevel.getD config.logLevel)).mapError .ofFilter
  request.command.run files config

end BookmarkGraph
