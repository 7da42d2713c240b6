import SqlSelect.Document.Toml.Scalar
import SqlSelect.Document.Toml.Table

/-!
# Reading TOML

A text is a list of lines: headers, assignments, and lines without content. Values
are read where they stand and tables are put together afterwards.

## Main definitions

* `Toml.readValue`: values, with arrays and inline tables;
* `Toml.Section`: a header with the assignments under it;
* `Toml.read?`.
-/

namespace SqlSelect

namespace Toml

def inlineTable? (assignments : List (List String × Tree)) : Option Tree :=
  (assignAll? assignments []).map fun entries => .table (entriesTrees entries)

mutual

/-- A value at the head of a text, in which at most `depth` arrays and inline tables
    nest, and the text after it. -/
def readValue : Nat → Nat → List Char → Option (Tree × List Char)
  | 0, _, _ => none
  | fuel + 1, depth, cs =>
    match cs with
    | 't' :: 'r' :: 'u' :: 'e' :: rest => some (.bool true, rest)
    | 'f' :: 'a' :: 'l' :: 's' :: 'e' :: rest => some (.bool false, rest)
    | '[' :: rest =>
      match depth with
      | 0 => none
      | depth + 1 => do
        let (items, rest) ← readItems fuel depth (skipTrivia false rest)
        some (.list items, rest)
    | '\x7b' :: rest =>
      match depth, skipSpace rest with
      | 0, _ => none
      | _ + 1, '\x7d' :: rest => some (.table [], rest)
      | depth + 1, rest => do
        let (members, rest) ← readMembers fuel depth rest
        some (← inlineTable? members, rest)
    | c :: _ =>
      if c = '"' ∨ c = '\'' then
        (string? cs).map fun (s, rest) => (.text s, rest)
      else scalar? cs
    | [] => none

/-- The items of an array up to its closing bracket. A comma may follow the last. -/
def readItems : Nat → Nat → List Char → Option (List Tree × List Char)
  | 0, _, _ => none
  | fuel + 1, depth, cs =>
    match cs with
    | ']' :: rest => some ([], rest)
    | _ => do
      let (t, rest) ← readValue fuel depth cs
      match skipTrivia false rest with
      | ',' :: rest => do
        let (items, rest) ← readItems fuel depth (skipTrivia false rest)
        some (t :: items, rest)
      | ']' :: rest => some ([t], rest)
      | _ => none

/-- The members of an inline table up to its closing brace, at least one, on one
    line and without a comma after the last. -/
def readMembers : Nat → Nat → List Char → Option (List (List String × Tree) × List Char)
  | 0, _, _ => none
  | fuel + 1, depth, cs => do
    let (key, rest) ← key? cs
    let (t, rest) ← readValue fuel depth (skipSpace (← after? '=' rest))
    match skipSpace rest with
    | ',' :: rest => do
      let (members, rest) ← readMembers fuel depth rest
      some ((key, t) :: members, rest)
    | '\x7d' :: rest => some ([(key, t)], rest)
    | _ => none

end

/-! ### Lines and sections -/

/-- The kind of a header. -/
inductive HeaderKind where
  | table
  | element

/-- A line with content. -/
inductive Line where
  | header (kind : HeaderKind) (key : List String)
  | assignment (key : List String) (t : Tree)

def header? (cs : List Char) : Option (Line × List Char) :=
  match cs with
  | '[' :: rest => do
    let (key, rest) ← key? rest
    let rest ← after? ']' (← after? ']' rest)
    some (.header .element key, ← lineEnd? rest)
  | _ => do
    let (key, rest) ← key? cs
    some (.header .table key, ← lineEnd? (← after? ']' rest))

def assignment? (cs : List Char) : Option (Line × List Char) := do
  let (key, rest) ← key? cs
  let rest ← after? '=' rest
  let (t, rest) ← readValue (2 * rest.length + 2) nestingLimit (skipSpace rest)
  some (.assignment key t, ← lineEnd? rest)

/-- The lines of a text that have content. -/
def lines? : Nat → List Char → Option (List Line)
  | 0, _ => none
  | fuel + 1, cs =>
    match skipSpace cs with
    | [] => some []
    | '[' :: rest => do
      let (line, rest) ← header? rest
      some (line :: (← lines? fuel rest))
    | c :: rest =>
      if c = '#' ∨ c = '\n' ∨ c = '\r' then do
        lines? fuel (← lineEnd? (c :: rest))
      else do
        let (line, rest) ← assignment? (c :: rest)
        some (line :: (← lines? fuel rest))

/-- A header with the assignments under it. -/
structure Section where
  kind : HeaderKind
  key : List String
  assignments : List (List String × Tree)

/-- The assignments before the first header, and the sections after them. -/
def sections : List Line → List (List String × Tree) × List Section
  | [] => ([], [])
  | .assignment key t :: rest =>
    let (top, more) := sections rest
    ((key, t) :: top, more)
  | .header kind key :: rest =>
    let (top, more) := sections rest
    -- What would stand before the first header stands under this one.
    ([], ⟨kind, key, top⟩ :: more)

/-- Adds a section to the entries of a document. -/
def addSection? (entries : Entries) (s : Section) : Option Entries :=
  let change := match s.kind with
    | .table => addTable? s.assignments
    | .element => addElement? s.assignments
  extendAt? change s.key entries

def document? (lines : List Line) : Option Tree := do
  let (top, more) := sections lines
  let entries ← assignAll? top []
  let entries ← more.foldlM addSection? entries
  some (.table (entriesTrees entries))

/-- Reads a TOML text. A byte order mark at its head is skipped. -/
def read? (text : String) : Option Tree := do
  let cs := match text.toList with
    | '\ufeff' :: rest => rest
    | cs => cs
  document? (← lines? (cs.length + 1) cs)

end Toml

end SqlSelect
