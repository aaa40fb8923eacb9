import BookmarkGraph.Command.Files

/-!
# Files in a tree of directories

A path is a list of names with slashes between them. It is followed name by name, from the root if
it begins with a slash and otherwise from the directory in which the run began. A dot and an empty
name stay where they are, and two dots lead to the directory above.

A file has nothing below it, not even behind a slash at the end of a path. A file that is to be
created need not be there, but the directory that it is to stand in must.

## Contents

* `FileTree.walk`: follows names;
* `FileTree.read`: what a path holds;
* `FileTree.creation`: where a file is created.
-/

namespace BookmarkGraph

/-- Files and directories. Both are given by the names that lead to them from the root. -/
structure FileTree where
  /-- The files and what they hold. -/
  files : List (List String × List UInt8)
  /-- Directories that hold nothing. -/
  empty : List (List String)
  /-- The directory in which the run began. -/
  start : List String
deriving Repr

namespace FileTree

/-- The size that a name may have, in bytes. -/
def nameLimit : Nat := 255

/-- The size that a path may have, in bytes. -/
def pathLimit : Nat := 4095

def isFile (tree : FileTree) (names : List String) : Bool := (tree.files.lookup names).isSome

/-- Whether names lead to a directory: an empty one, or one above a file or an empty one. -/
def isDirectory (tree : FileTree) (names : List String) : Bool :=
  tree.empty.any names.isPrefixOf
    || tree.files.any fun (file, _) ↦ names.isPrefixOf file && names ≠ file

/-- Follows names from a place in the tree. -/
def walk (tree : FileTree) (here : List String) : List String → Except FileFault (List String)
  | [] => .ok here
  | name :: rest =>
    if tree.isFile here then .error .notDirectory
    else if name = "" || name = "." then tree.walk here rest
    else if name = ".." then tree.walk here.dropLast rest
    else if nameLimit < name.utf8ByteSize then .error .nameTooLong
    else
      let there := here ++ [name]
      if tree.isFile there || tree.isDirectory there then tree.walk there rest
      else .error .absent

/-- The place where a path begins, and its names. -/
def route (tree : FileTree) (path : String) : Except FileFault (List String × List String) :=
  if path.isEmpty then .error .absent
  else if pathLimit < path.utf8ByteSize then .error .nameTooLong
  else .ok (if path.startsWith "/" then [] else tree.start, path.splitOn "/")

def read (tree : FileTree) (path : String) : Except FileFault (List UInt8) := do
  let (origin, names) ← tree.route path
  let place ← tree.walk origin names
  match tree.files.lookup place with
  | some bytes => return bytes
  | none => throw .isDirectory

/-- The place at which a file is created. No file is created where a path ends with a slash or with
dots, which belong to directories. -/
def creation (tree : FileTree) (path : String) : Except FileFault (List String) := do
  let (origin, names) ← tree.route path
  match names.reverse.dropWhile (· = "") with
  | [] => throw .isDirectory
  | name :: above =>
    let parent ← tree.walk origin above.reverse
    if tree.isFile parent then throw .notDirectory
    if name = "." || name = ".." || names.getLast? = some "" then throw .isDirectory
    if nameLimit < name.utf8ByteSize then throw .nameTooLong
    if tree.isDirectory (parent ++ [name]) then throw .isDirectory
    return parent ++ [name]

end FileTree

end BookmarkGraph
