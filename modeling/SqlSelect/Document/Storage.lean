import SqlSelect.Document.Decoding
import SqlSelect.Document.Encoding
import SqlSelect.Document.Json.Printer
import SqlSelect.Document.Json.Reader
import SqlSelect.Document.Toml.Reader
import SqlSelect.Files.System

/-!
# Stored queries and options

Queries are stored as JSON or TOML documents and options as TOML. The extension of
a file decides how a query is read.

## Main definitions

* `Query.ofJson?`, `Query.toJson` and `Query.ofToml?`;
* `RenderOptions.ofToml?`;
* `LoadError` and `Complaint`: why nothing is loaded, in the words of a reader;
* `Query.load` and `RenderOptions.discover`: reading from files.
-/

namespace SqlSelect

/-- JSON records have no superfluous items, and no payload is null. -/
def Json.conventions : Conventions where
  extraItems := false
  extraMembers := true
  isUnit := fun
    | .null => true
    | _ => false

/-- The number of lists and tables that may nest in a JSON document, as far as it is
    needed. -/
def Json.nestingLimit : Nat := 127

/-- TOML records may have superfluous items, but those that are payloads no unknown
    members, and no payload is an empty list or table. -/
def Toml.conventions : Conventions where
  extraItems := true
  extraMembers := false
  isUnit := fun
    | .list [] => true
    | .table [] => true
    | _ => false

def Json.decode? {α : Type} (decode : Conventions → Nat → Tree → Option α) (text : String) :
    Option α :=
  (Json.read? text).bind (decode Json.conventions Json.nestingLimit)

def Toml.decode? {α : Type} (decode : Conventions → Nat → Tree → Option α) (text : String) :
    Option α :=
  (Toml.read? text).bind fun t => decode Toml.conventions t.depth t

namespace Query

def ofJson? (text : String) : Option Query := Json.decode? Query.decode text

def ofToml? (text : String) : Option Query := Toml.decode? Query.decode text

/-- Writes a query as JSON, one item a line. -/
def toJson (q : Query) : String := Json.print .pretty q.encode

end Query

/-- Decodes a configuration: the options are its member `render`, which may be left
    out. -/
def RenderOptions.decodeConfiguration (conventions : Conventions) :
    Nat → Tree → Option RenderOptions
  | depth + 1, t =>
    match t.fields? conventions ["render"] with
    | some [options] => fieldOr {} (RenderOptions.decode conventions depth) options
    | _ => none
  | _, _ => none

/-- Reads render options from a configuration in TOML. -/
def RenderOptions.ofToml? (text : String) : Option RenderOptions :=
  Toml.decode? RenderOptions.decodeConfiguration text

/-! ### Files -/

/-- What a text is read as. -/
inductive TextKind where
  | jsonDocument
  | tomlDocument
  | configuration
deriving DecidableEq

/-- What is said about a text that cannot be read. The words are those of the reader of
    its notation; they depend on the text and on what it should be, and nothing that is
    loaded depends on them. -/
def Complaint : Type := TextKind → String → String

/-- Why a query or options cannot be loaded, with what is said about a text that cannot
    be read. -/
inductive LoadError where
  | malformedConfiguration (detail : String)
  | malformedDocument (detail : String)
  | unreadable (cause : FileError)
deriving DecidableEq

namespace LoadError

def message : LoadError → String
  | .malformedConfiguration detail => "Configuration error: " ++ detail
  | .malformedDocument detail => "Document error: " ++ detail
  | .unreadable cause => "IO error: " ++ cause.message

/-- The message, followed by that of its cause. -/
def report : LoadError → String
  | .unreadable cause => (unreadable cause).message ++ ": " ++ cause.message
  | e => e.message

end LoadError

/-- A path is that of a JSON document: its extension is `json`, in any case. -/
def isJsonPath (path : String) : Bool :=
  match Path.extension? path with
  | some extension => extension.map Char.toLower = ['j', 's', 'o', 'n']
  | none => false

/-- Loads a query: JSON or TOML by the extension of the path. -/
def Query.load (complaint : Complaint) (files : FileSystem) (path : String) :
    Except LoadError Query := do
  let text ← (files.readText path).mapError .unreadable
  if isJsonPath path then
    let some q := ofJson? text | throw (.malformedDocument (complaint .jsonDocument text))
    return q
  else
    let some q := ofToml? text | throw (.malformedDocument (complaint .tomlDocument text))
    return q

def RenderOptions.load (complaint : Complaint) (files : FileSystem) (path : String) :
    Except LoadError RenderOptions := do
  let text ← (files.readText path).mapError .unreadable
  let some options := ofToml? text
    | throw (.malformedConfiguration (complaint .configuration text))
  return options

/-- The place of the configuration inside the user's configuration directory. -/
def defaultConfiguration (directory : String) : String :=
  directory ++ "/lambda-sql/config.toml"

/-- The render options in force. A path that is given must be readable; without one,
    the default configuration counts if there is such a file. -/
def RenderOptions.discover (complaint : Complaint) (files : FileSystem)
    (directory : Option String) (given : Option String) : Except LoadError RenderOptions :=
  match given, directory.map defaultConfiguration with
  | some path, _ => load complaint files path
  | none, some path => if files.isFile path then load complaint files path else .ok {}
  | none, none => .ok {}

end SqlSelect
