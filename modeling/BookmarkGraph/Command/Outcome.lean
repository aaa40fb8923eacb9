import BookmarkGraph.Command.Render

/-!
# Outcomes of a command line

A command line ends with a status: zero when it was answered, one when the command failed, two when
the command line is not well-formed. A run that is broken off has a status of its own.
-/

namespace BookmarkGraph

/-- How a command line ends. -/
structure Outcome where
  /-- The status. -/
  status : UInt32
  /-- What is written. -/
  output : Output
  /-- The message for the error output, if there is one. -/
  error : Option String
deriving DecidableEq, Repr

namespace Outcome

/-- The name of the program and its version. -/
def version : String := "gremlite 0.1.0\n"

def usage : String := String.join [
  "Usage: gremlite [OPTIONS] <COMMAND>\n\n",
  "Commands:\n",
  "  stats       --snapshot <FILE>\n",
  "  traverse    --snapshot <FILE> [--start <ID>] [--steps <STEPS>]\n",
  "  recommend   --snapshot <FILE> [--strategy <NAME>] [--top-n <N>] [--weighting <WEIGHTING>]\n",
  "              [--ignore-visibility] [--output <FILE>]\n",
  "  strategies\n\n",
  "Options:\n",
  "  --config <FILE>  --log-level <FILTER>  --format <FORMAT>  --theme <THEME>  --quiet\n"]

/-- The end of a command line that asks for nothing to be run. -/
def ofHalt : Halt → Outcome
  | .usage => ⟨2, .mk "" none, some usage⟩
  | .help => ⟨0, .mk usage none, none⟩
  | .version => ⟨0, .mk version none, none⟩

/-- The status of a request that failed. -/
def statusOf : CommandError → UInt32
  | .library _ | .output _ => 1
  | .misalignedFilter => 101

def ofError (error : CommandError) : Outcome :=
  ⟨statusOf error, .mk "" none, error.message?.map ("error: " ++ ·)⟩

/-- The end of a request that was answered. -/
def ofFinding (request : Request) (timing : Timing) (finding : Finding) : Outcome :=
  ⟨0, finding.render request.format request.quiet timing, none⟩

/-- The end of a command line over files. -/
def ofArguments (files : Files) (environment standard : Option String) (timing : Timing)
    (arguments : List String) : Outcome :=
  match Arguments.parse environment arguments with
  | .error halt => ofHalt halt
  | .ok request =>
    match request.run files standard with
    | .error e => ofError e
    | .ok finding => ofFinding request timing finding

end Outcome

end BookmarkGraph
