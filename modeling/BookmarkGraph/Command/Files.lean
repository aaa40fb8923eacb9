import BookmarkGraph.Config.Toml
import BookmarkGraph.Domain.Snapshot

/-!
# Files of a run

A run sees files through two questions: what a path holds, and whether a file can be created at a
path. Settings and snapshots are read from such files.
-/

namespace BookmarkGraph

/-- The files that a run can reach. -/
structure Files where
  /-- The bytes of the file at a path. -/
  read : String → Except FileFault (List UInt8)
  /-- Whether a file can be created at a path. -/
  create : String → Except FileFault Unit

/-- The text that bytes encode in UTF-8. -/
def decodeText? (bytes : List UInt8) : Option String :=
  ((Symbol.ofBytes bytes).mapM fun symbol ↦ symbol).map String.ofList

/-- The settings in the file at a path, or the defaults if there is no such path. -/
def Config.load (files : Files) (path : Option String) : Except GraphError Config :=
  match path with
  | none => .ok {}
  | some path =>
    match files.read path with
    | .error .isDirectory => .error (.config path (.unreadable .isDirectory))
    | .error _ => .ok {}
    | .ok bytes =>
      match decodeText? bytes with
      | none => .error (.config path .notText)
      | some document => Config.ofDocument path document

/-- The snapshot in the file at a path. A directory can be opened but not read. -/
def Snapshot.load (files : Files) (path : String) : Except GraphError Snapshot :=
  match files.read path with
  | .error .isDirectory => .error (.document .unreadable)
  | .error fault => .error (.file fault)
  | .ok bytes => Snapshot.ofDocument (Symbol.ofBytes bytes)

end BookmarkGraph
