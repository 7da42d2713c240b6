/-!
# Files

What a program that reads files by their paths can see of them.

## Main definitions

* `FileError` and `FileSystem`;
* `FileSystem.readText`: a file as text;
* `Path.extension?`: the extension of a path.
-/

namespace SqlSelect

/-- Why a file cannot be read as text. -/
inductive FileError where
  | missing
  | notDirectory
  | isDirectory
  | notText
deriving DecidableEq

/-- The message about a file that cannot be read. -/
def FileError.message : FileError → String
  | .missing => "No such file or directory (os error 2)"
  | .notDirectory => "Not a directory (os error 20)"
  | .isDirectory => "Is a directory (os error 21)"
  | .notText => "stream did not contain valid UTF-8"

/-- The bytes behind each path, or why there are none. -/
def FileSystem : Type := String → Except FileError ByteArray

namespace FileSystem

def isFile (files : FileSystem) (path : String) : Bool :=
  match files path with
  | .ok _ => true
  | .error _ => false

/-- The file behind the path as text in UTF-8. -/
def readText (files : FileSystem) (path : String) : Except FileError String := do
  let bytes ← files path
  match String.fromUTF8? bytes with
  | some text => .ok text
  | none => .error .notText

end FileSystem

namespace Path

/-- The parts of a path between its slashes. -/
def parts (path : List Char) : List (List Char) := path.splitOn '/'

/-- The last part of a path that is a name, unless the path ends by going up. -/
def fileName? (path : String) : Option (List Char) :=
  match ((parts path.toList).filter fun p => p ≠ [] ∧ p ≠ ['.']).getLast? with
  | some ['.', '.'] => none
  | name => name

/-- What follows the last point of the file name, where something precedes it. -/
def extension? (path : String) : Option (List Char) := do
  let reversed := (← fileName? path).reverse
  match reversed.dropWhile (· ≠ '.') with
  | _ :: _ :: _ => some (reversed.takeWhile (· ≠ '.')).reverse
  | _ => none

end Path

end SqlSelect
