import SqlSelect.Document.Tree

/-!
# Assembling TOML tables

A TOML text names the same table in several places: in headers, as a part of
longer headers, and in dotted keys. This module says which of these may be
combined.

## Main definitions

* `Toml.Node`: a table under construction;
* `Toml.assign?`: adding a value under a dotted key;
* `Toml.extendAt?`: adding a section under a header.

## Design notes

A table remembers how it came about. A header may complete a table that was only
implied by longer headers; a dotted key may add to a table that came about by
dotted keys. Everything else would define something twice.
-/

namespace SqlSelect

namespace Toml

/-- How a table came about: it has a header of its own, it is a part of longer
    headers, or it is a part of dotted keys. -/
inductive Origin where
  | header
  | implied
  | dotted
deriving DecidableEq

/-- What a key stands for while tables are put together: a complete value, a table,
    or the elements of an array of tables, latest last. -/
inductive Node where
  | value (t : Tree)
  | table (origin : Origin) (entries : List (String × Node))
  | tables (elements : List (List (String × Node)))

abbrev Entries := List (String × Node)

/-- Entries with another node under a key that they already have. -/
def replace (key : String) (node : Node) (entries : Entries) : Entries :=
  entries.map fun e => if e.1 == key then (key, node) else e

/-- Adds a value under a dotted key. `accepts` says that a plain key may be added to
    these entries. -/
def assign? (t : Tree) : List String → Bool → Entries → Option Entries
  | [], _, _ => none
  | [key], accepts, entries =>
    if accepts && (entries.lookup key).isNone then some (entries ++ [(key, .value t)])
    else none
  | key :: path, _, entries =>
    match entries.lookup key with
    | none => do
      let inner ← assign? t path true []
      some (entries ++ [(key, .table .dotted inner)])
    | some (.table .dotted inner) => do
      let inner ← assign? t path true inner
      some (replace key (.table .dotted inner) entries)
    | some (.table .implied inner) => do
      -- An implied table takes no keys itself, but its subtables may.
      let inner ← assign? t path false inner
      some (replace key (.table .implied inner) entries)
    | some (.tables elements) => do
      let latest ← elements.getLast?
      let inner ← assign? t path false latest
      some (replace key (.tables (elements.dropLast ++ [inner])) entries)
    -- Either of them is complete.
    | some (.table .header _) | some (.value _) => none

def assignAll? (assignments : List (List String × Tree)) (entries : Entries) : Option Entries :=
  assignments.foldlM (fun entries (key, t) => assign? t key true entries) entries

/-- Changes the entries that the last key of a header belongs to. Tables on the way
    are implied where they are missing, and of an array of tables the latest element
    counts. -/
def extendAt? (change : String → Entries → Option Entries) :
    List String → Entries → Option Entries
  | [], _ => none
  | [key], entries => change key entries
  | key :: path, entries =>
    match entries.lookup key with
    | none => do
      let inner ← extendAt? change path []
      some (entries ++ [(key, .table .implied inner)])
    | some (.table origin inner) => do
      let inner ← extendAt? change path inner
      some (replace key (.table origin inner) entries)
    | some (.tables elements) => do
      let latest ← elements.getLast?
      let inner ← extendAt? change path latest
      some (replace key (.tables (elements.dropLast ++ [inner])) entries)
    | some (.value _) => none

/-- Adds the table of a header, which may complete an implied one. -/
def addTable? (assignments : List (List String × Tree)) (key : String) (entries : Entries) :
    Option Entries :=
  match entries.lookup key with
  | none => do
    let inner ← assignAll? assignments []
    some (entries ++ [(key, .table .header inner)])
  | some (.table .implied inner) => do
    let inner ← assignAll? assignments inner
    some (replace key (.table .header inner) entries)
  | _ => none

/-- Adds an element to an array of tables. -/
def addElement? (assignments : List (List String × Tree)) (key : String) (entries : Entries) :
    Option Entries :=
  match entries.lookup key with
  | none => do
    let inner ← assignAll? assignments []
    some (entries ++ [(key, .tables [inner])])
  | some (.tables elements) => do
    let inner ← assignAll? assignments []
    some (replace key (.tables (elements ++ [inner])) entries)
  | _ => none

mutual

def Node.tree : Node → Tree
  | .value t => t
  | .table _ entries => .table (entriesTrees entries)
  | .tables elements => .list (elementTrees elements)

def entriesTrees : List (String × Node) → List (String × Tree)
  | [] => []
  | (key, node) :: rest => (key, node.tree) :: entriesTrees rest

/-- The trees of the elements of an array of tables. -/
def elementTrees : List (List (String × Node)) → List Tree
  | [] => []
  | entries :: rest => .table (entriesTrees entries) :: elementTrees rest

end

end Toml

end SqlSelect
