/-!
# Entities

An entity is a table with its declared columns. Each column carries an ordinal,
so that the order in which columns are listed does not depend on how the
declaration was put together.

## Main definitions

* `Column` and `Entity`;
* `Entity.ordered`: the columns by ordinal, ties in order of declaration;
* `Entity.fields`, `Entity.primary?` and `Entity.column?`.
-/

namespace SqlSelect

/-- A column of an entity. -/
structure Column where
  name : String
  order : UInt32 := 0
  primary : Bool := false
deriving DecidableEq

/-- A table and its declared columns. -/
structure Entity where
  table : String
  columns : List Column := []
deriving DecidableEq

namespace Entity

/-- The columns by ordinal. Columns with the same ordinal keep their order of
    declaration. -/
def ordered (e : Entity) : List Column :=
  e.columns.mergeSort fun a b => a.order ≤ b.order

/-- The names of the columns by ordinal. -/
def fields (e : Entity) : List String := e.ordered.map Column.name

/-- The name of the first column by ordinal that is flagged as primary. -/
def primary? (e : Entity) : Option String :=
  (e.ordered.find? Column.primary).map Column.name

/-- The first declared column of a name. -/
def column? (e : Entity) (name : String) : Option Column :=
  e.columns.find? fun c => c.name == name

theorem perm_ordered (e : Entity) : e.ordered.Perm e.columns :=
  List.mergeSort_perm _ _

end Entity

end SqlSelect
