import BookmarkGraph.Command.Outcome

/-!
# The command line

Reads the files that a request names, answers the request and writes the results.
-/

namespace BookmarkGraph.Program

/-- Why a path cannot be opened. The number of an error may have a sign. -/
def faultOf : IO.Error → FileFault
  | .inappropriateType _ code _ => if code = 21 then .isDirectory else .notDirectory
  | .invalidArgument _ code _ => if code = 36 || -code = 36 then .nameTooLong else .absent
  | _ => .absent

/-- What a path holds. -/
def readPath (path : String) : IO (Except FileFault (List UInt8)) := do
  try
    let bytes ← IO.FS.readBinFile path
    return .ok bytes.toList
  catch e => return .error (faultOf e)

/-- The path of the settings that are used when none are named. -/
def standardConfig : IO (Option String) := do
  let base ← match ← IO.getEnv "XDG_CONFIG_HOME" with
    | some path =>
      if path.startsWith "/" then pure (some path)
      else pure ((← IO.getEnv "HOME").map fun home ↦ home ++ "/.config")
    | none => pure ((← IO.getEnv "HOME").map fun home ↦ home ++ "/.config")
  return base.map fun path ↦ path ++ "/gremlite/config.toml"

/-- The paths that a request reads. -/
def pathsOf (standard : Option String) (request : Request) : List String :=
  let snapshot :=
    match request.command with
    | .stats path | .traverse path _ _ | .recommend path _ => [path]
    | .strategies => []
  (request.config.or standard).toList ++ snapshot

/-- Writes an outcome. The file is created first, so that nothing else is written if that fails. -/
def finish (outcome : Outcome) : IO UInt32 := do
  let ready ← match outcome.output.file with
    | none => pure outcome
    | some (path, text) =>
      try
        IO.FS.writeFile path text
        pure outcome
      catch e => pure (Outcome.ofError (.output (faultOf e)))
  IO.print ready.output.standard
  match ready.error with
  | none => pure ()
  | some message => IO.eprintln message
  return ready.status

end BookmarkGraph.Program

open BookmarkGraph BookmarkGraph.Program

/-- Runs the command line. -/
def main (arguments : List String) : IO UInt32 := do
  match Arguments.parse (← IO.getEnv "GREMLITE_CONFIG") arguments with
  | .error halt => finish (.ofHalt halt)
  | .ok request =>
    let standard ← standardConfig
    let held ← (pathsOf standard request).mapM fun path ↦ do return (path, ← readPath path)
    let files : Files := {
      read := fun path ↦ (held.lookup path).getD (.error .absent)
      create := fun _ ↦ .ok () }
    let before ← IO.monoMsNow
    match request.run files standard with
    | .error e => finish (.ofError e)
    | .ok finding =>
      let elapsed := (← IO.monoMsNow) - before
      finish (.ofFinding request ⟨elapsed, Timing.text elapsed⟩ finding)
