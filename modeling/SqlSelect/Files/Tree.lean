import SqlSelect.Files.System

/-!
# Directory trees in memory

A directory with everything below it, held as a list of paths, and the file system
that relative paths see from inside it.

## Main definitions

* `DirectoryTree`;
* `DirectoryTree.fileSystem`.
-/

namespace SqlSelect

/-- What stands at a place in a directory tree. -/
inductive DirectoryEntry where
  | file (content : ByteArray)
  | directory

/-- The entries of a directory tree by the names on the way to them. Directories on
    the way need no entry of their own. -/
structure DirectoryTree where
  entries : List (List (List Char) × DirectoryEntry)

namespace DirectoryTree

/-- What stands at a place: an entry, or a directory on the way to one. The top is a
    directory. -/
def entry? (tree : DirectoryTree) (place : List (List Char)) : Option DirectoryEntry :=
  match tree.entries.lookup place with
  | some entry => some entry
  | none =>
    if place = [] ∨ tree.entries.any fun e => place.isPrefixOf e.1 then some .directory
    else none

/-- Follows the parts of a path from a place. Every part needs a directory to start
    from, and nothing is known above the top. -/
def walk (tree : DirectoryTree) (place : List (List Char)) :
    List (List Char) → Except FileError ByteArray
  | [] =>
    match tree.entry? place with
    | some (.file content) => .ok content
    | some .directory => .error .isDirectory
    | none => .error .missing
  | part :: rest =>
    match tree.entry? place with
    | none => .error .missing
    | some (.file _) => .error .notDirectory
    | some .directory =>
      if part = [] ∨ part = ['.'] then tree.walk place rest
      else if part = ['.', '.'] then
        if place = [] then .error .missing else tree.walk place.dropLast rest
      else tree.walk (place ++ [part]) rest

/-- The file system that relative paths see from the top of a tree. -/
def fileSystem (tree : DirectoryTree) : FileSystem := fun path =>
  if path.isEmpty || path.front == '/' then .error .missing
  else tree.walk [] (Path.parts path.toList)

end DirectoryTree

end SqlSelect
