import BookmarkGraph.Config.Basic
import BookmarkGraph.Text.Fields
import BookmarkGraph.Text.Numeral

/-!
# Arguments of the command line

A command line names a command. Options may stand in front of the command, where only those are
known that every command takes, and behind it. An option is written with two dashes, its value
behind an equals sign or as the next argument; a value that is an argument of its own does not begin
with a dash, unless it is nothing else.

## Contents

* `OptionSpec` and `Arguments.scan`: options in general;
* `Request`, `Command`: what a command line asks for;
* `Arguments.parse`: the request of a command line.
-/

namespace BookmarkGraph

/-- How results are written. -/
inductive Format where
  /-- For a reader. -/
  | text
  /-- As JSON. -/
  | json
  /-- As records with commas. -/
  | csv
deriving DecidableEq, Repr, Inhabited

def Format.ofName? : String → Option Format
  | "text" => some .text
  | "json" => some .json
  | "csv" => some .csv
  | _ => none

/-- What a run of strategies is asked to do differently from the settings. -/
structure RecommendOptions where
  /-- The strategies to run, if any are named. -/
  strategies : List String
  /-- How many listings a profile keeps at most. -/
  topN : Option UInt64
  /-- How listings gain score. -/
  weighting : Option Weighting
  /-- Whether the flags of listings are to be ignored. -/
  ignoreVisibility : Bool
  /-- The file to write the results to. -/
  output : Option String
deriving DecidableEq, Repr

/-- A command with its own options. -/
inductive Command where
  /-- Count the elements of a snapshot. -/
  | stats (snapshot : String)
  /-- Run a traversal over a snapshot. -/
  | traverse (snapshot : String) (start : List String) (steps : String)
  /-- Run strategies over a snapshot. -/
  | recommend (snapshot : String) (options : RecommendOptions)
  /-- List the strategies. -/
  | strategies
deriving DecidableEq, Repr

/-- What a command line asks for. -/
structure Request where
  /-- The file with the settings, if one is named. -/
  config : Option String
  /-- The filter of log messages, if one is given. -/
  logLevel : Option String
  /-- How results are written. -/
  format : Format
  /-- Whether marks in front of messages are left out. -/
  quiet : Bool
  /-- The command. -/
  command : Command
deriving DecidableEq, Repr

/-- Why a command line asks for nothing to be run. -/
inductive Halt where
  /-- The command line is not well-formed. -/
  | usage
  /-- Help is asked for. -/
  | help
  /-- The version is asked for. -/
  | version
deriving DecidableEq, Repr

/-- An option that a command line may give. -/
structure OptionSpec where
  /-- The name behind the two dashes. -/
  name : String
  /-- Whether the option has a value. -/
  takesValue : Bool := true
  /-- Whether the option may be given more than once. -/
  repeatable : Bool := false
  /-- Whether a value is acceptable. -/
  accepts : String → Bool := fun _ ↦ true

namespace Arguments

/-! ## Options -/

/-- Options with their values, the one given last at the head. An option without a value has an
empty one. -/
abbrev Given := List (String × String)

/-- The kinds of arguments. -/
inductive Shape where
  /-- The argument that ends the options. -/
  | separator
  /-- An option, with its value if it is written behind an equals sign. -/
  | long (name : String) (value : Option String)
  /-- A letter behind a dash. -/
  | short (letter : Char)
  /-- Anything else. -/
  | plain
deriving DecidableEq, Repr

def shape (argument : String) : Shape :=
  match argument.toList with
  | ['-', '-'] => .separator
  | '-' :: '-' :: rest =>
    match Fields.splitOnce '=' rest with
    | some (name, value) => .long (String.ofList name) (some (String.ofList value))
    | none => .long (String.ofList rest) none
  | '-' :: letter :: _ => .short letter
  | _ => .plain

/-- Enters an option with an acceptable value, unless it is there already and may not be
repeated. -/
def enter (spec : OptionSpec) (value : String) (given : Given) : Except Halt Given :=
  if !spec.repeatable && (given.lookup spec.name).isSome then .error .usage
  else if spec.accepts value then .ok ((spec.name, value) :: given)
  else .error .usage

/-- Reads options up to a command or the end. What is left is the command with the arguments behind
it. -/
def scan (specs : List OptionSpec) (commands : List String) (versioned : Bool) (given : Given) :
    List String → Except Halt (Given × Option (String × List String))
  | [] => .ok (given, none)
  | argument :: rest =>
    if commands.contains argument then .ok (given, some (argument, rest))
    else
      match shape argument with
      | .separator => if rest.isEmpty then .ok (given, none) else .error .usage
      | .plain => .error .usage
      | .short 'h' | .long "help" none => .error .help
      | .short letter => .error (if versioned && letter = 'V' then .version else .usage)
      | .long name value =>
        if versioned && name = "version" && value.isNone then .error .version
        else
          match specs.find? fun spec ↦ spec.name = name with
          | none => .error .usage
          | some spec =>
            match spec.takesValue, value with
            | false, some _ => .error .usage
            | false, none =>
              match enter spec "" given with
              | .error halt => .error halt
              | .ok given => scan specs commands versioned given rest
            | true, some value =>
              match enter spec value given with
              | .error halt => .error halt
              | .ok given => scan specs commands versioned given rest
            | true, none =>
              match rest with
              | [] => .error .usage
              | value :: rest =>
                if shape value = .plain then
                  match enter spec value given with
                  | .error halt => .error halt
                  | .ok given => scan specs commands versioned given rest
                else .error .usage

/-! ## The options of the commands -/

/-- A path is acceptable unless it is empty. -/
def isPath (value : String) : Bool := !value.isEmpty

def globals : List OptionSpec := [
  { name := "config", accepts := isPath },
  { name := "log-level" },
  { name := "format", accepts := fun v ↦ (Format.ofName? v).isSome },
  { name := "theme", accepts := fun v ↦ ["auto", "light", "dark", "plain"].contains v },
  { name := "quiet", takesValue := false }]

/-- The option that names a snapshot. -/
def snapshotSpec : OptionSpec := { name := "snapshot", accepts := isPath }

/-- The options of a traversal. -/
def traverseSpecs : List OptionSpec :=
  [snapshotSpec, { name := "start", repeatable := true }, { name := "steps" }]

/-- The options of a run of strategies. -/
def recommendSpecs : List OptionSpec := [
  snapshotSpec,
  { name := "strategy", repeatable := true },
  { name := "top-n", accepts := fun v ↦ (Numeral.unsigned64? v).isSome },
  { name := "weighting", accepts := fun v ↦ (Weighting.ofName? v).isSome },
  { name := "ignore-visibility", takesValue := false },
  { name := "output", accepts := isPath }]

/-- The commands with the options that they take besides the common ones. -/
def commands : List (String × List OptionSpec) := [
  ("stats", [snapshotSpec]), ("traverse", traverseSpecs), ("recommend", recommendSpecs),
  ("strategies", [])]

/-- All values of an option, in the order in which they are given. -/
def values (given : Given) (name : String) : List String :=
  (given.reverse.filter fun entry ↦ entry.1 = name).map (·.2)

/-- The command of a name with its options, of which those that must be given are there. -/
def command (name : String) (given : Given) : Except Halt Command := do
  if name = "strategies" then return .strategies
  let some snapshot := given.lookup "snapshot" | throw .usage
  match name with
  | "stats" => return .stats snapshot
  | "traverse" =>
    let start := (values given "start").flatMap fun ids ↦
      (Fields.split ',' ids.toList).map String.ofList
    return .traverse snapshot start ((given.lookup "steps").getD "")
  | "recommend" =>
    return .recommend snapshot {
      strategies := values given "strategy"
      topN := (given.lookup "top-n").bind Numeral.unsigned64?
      weighting := (given.lookup "weighting").bind Weighting.ofName?
      ignoreVisibility := (given.lookup "ignore-visibility").isSome
      output := given.lookup "output" }
  | _ => throw .usage

/-! ## Command lines -/

/-- The request of a command line. Settings that the environment names are used where the command
line names none; an empty name is not acceptable there either. An option behind the command goes
before the same option in front of it. -/
def parse (environment : Option String) (arguments : List String) : Except Halt Request := do
  let (before, rest) ← scan globals (commands.map (·.1)) true [] arguments
  let some (name, rest) := rest | throw .usage
  let specs := (commands.lookup name).getD []
  let (behind, _) ← scan (globals ++ specs) [] false [] rest
  let command ← command name behind
  let given (key : String) : Option String := (behind.lookup key).or (before.lookup key)
  let everywhere := (behind.lookup "config").isSome && (before.lookup "config").isSome
  if environment = some "" && !everywhere then throw .usage
  return {
    config := (given "config").or environment
    logLevel := given "log-level"
    format := ((given "format").bind Format.ofName?).getD .text
    quiet := (given "quiet").isSome
    command }

end Arguments

end BookmarkGraph
