import SqlSelect.Calendar.Reader
import SqlSelect.Document.Tree
import SqlSelect.Number.Literal
import SqlSelect.Query

/-!
# Decoding document trees

The inverse of encoding, which also accepts shorter and older forms: members in any
order, unknown members, defaults for members that are left out, and records as
lists of their fields.

## Main definitions

* `Conventions`: what differs between notations;
* `Tree.fields?` and `Tree.payloadFields?`: the fields of a record;
* `Value.decode`, `Expr.decode`, `Clauses.decode`, `Entity.decode`, `Query.decode`
  and `RenderOptions.decode`.

## Design notes

Every function takes the number of lists and tables that may still be entered. The
content of unknown members is not entered, so it may nest deeper.
-/

namespace SqlSelect

/-- What differs between the notations in which documents are stored. -/
structure Conventions where
  /-- A record that is written as a list may have more items than fields. -/
  extraItems : Bool
  /-- A record that is the payload of an alternative may have unknown members. -/
  extraMembers : Bool
  /-- The payloads that stand for none, where an alternative has no payload but is
      written as a table. -/
  isUnit : Tree → Bool

namespace Tree

def bool? : Tree → Option Bool
  | .bool b => some b
  | _ => none

def text? : Tree → Option String
  | .text s => some s
  | _ => none

def nat? (bound : Nat) : Tree → Option Nat
  | .int (.ofNat n) => if n < bound then some n else none
  | _ => none

def int64? : Tree → Option Int64
  | .int n => if (Int64.ofInt n).toInt = n then some (Int64.ofInt n) else none
  | _ => none

/-- A double, which may be written as an integer. -/
def double? : Tree → Option Double
  | .int n => some (Double.ofInt n)
  | .float x => some x
  | _ => none

/-- A decimal: a text, an integer, or a floating-point number, of which the
    shortest digits count. -/
def decimal? : Tree → Option Decimal
  | .text s => Decimal.ofText? s.toList
  | .int n => Decimal.ofInt? n
  | .float x => Decimal.ofText? (x.text Value.floatLayout)
  | _ => none

def dateTime? : Tree → Option DateTime
  | .text s => DateTime.ofText? s.toList
  | _ => none

/-- The items of a list, read one by one. -/
def list? {α : Type} (item : Nat → Tree → Option α) : Nat → Tree → Option (List α)
  | depth + 1, .list items => items.mapM (item depth)
  | _, _ => none

def texts? : Nat → Tree → Option (List String) := list? fun _ => text?

/-- The fields of a record by their names, absent where they are left out. In a
    table no field may be repeated, and members of other names do not count. In a
    list the fields stand in order. -/
def fields? (conventions : Conventions) (names : List String) :
    Tree → Option (List (Option Tree))
  | .table members =>
    if names.all fun name => (members.filter fun m => m.1 == name).length ≤ 1 then
      some (names.map fun name => members.lookup name)
    else none
  | .list items =>
    -- Fewer items than fields leave the last fields out.
    if items.length ≤ names.length ∨ conventions.extraItems then
      some (names.zipIdx.map fun (_, i) => items[i]?)
    else none
  | _ => none

/-- A table has a member of another name. -/
def hasOther (names : List String) : Tree → Bool
  | .table members => members.any fun m => m.1 ∉ names
  | _ => false

/-- The fields of a record that is the payload of an alternative. -/
def payloadFields? (conventions : Conventions) (names : List String) (t : Tree) :
    Option (List (Option Tree)) :=
  if t.hasOther names && !conventions.extraMembers then none
  else t.fields? conventions names

end Tree

/-- A field that has a default where it is left out. -/
def fieldOr {α : Type} (default : α) (read : Tree → Option α) : Option Tree → Option α
  | none => some default
  | some t => read t

variable (conventions : Conventions)

def Value.decode : Nat → Tree → Option Value
  | _, .text name => if name = "Null" then some .null else none
  | depth + 1, .table [(name, payload)] =>
    match name with
    | "Null" => if conventions.isUnit payload then some .null else none
    | "Bool" => payload.bool?.map .bool
    | "Int" => payload.int64?.map .int
    | "Float" => payload.double?.map .float
    | "Decimal" => payload.decimal?.map .decimal
    | "Text" => payload.text?.map .text
    | "DateTime" => payload.dateTime?.map .dateTime
    | "Array" =>
      match depth, payload with
      -- The list of the items is one more level.
      | depth + 1, .list items => (items.mapM (Value.decode depth)).map .array
      | _, _ => none
    | _ => none
  | _, _ => none

def Operator.decode : Nat → Tree → Option Operator
  | _, .text name => Operator.ofName? name
  | _ + 1, .table [(name, payload)] =>
    if conventions.isUnit payload then Operator.ofName? name else none
  | _, _ => none

def Expr.decode : Nat → Tree → Option Expr
  | depth + 1, .table [(name, payload)] =>
    match name with
    | "Literal" => (Value.decode conventions depth payload).map .literal
    | "Field" => payload.text?.map .field
    | "Computed" => (Value.decode conventions depth payload).map .computed
    | "Unary" => (Expr.decode depth payload).map .unary
    | "Binary" =>
      match depth, payload.payloadFields? conventions ["op", "left", "right"] with
      | depth + 1, some [some op, some left, some right] => do
        let op ← Operator.decode conventions depth op
        let left ← Expr.decode depth left
        let right ← Expr.decode depth right
        some (.binary op left right)
      | _, _ => none
    | "Membership" =>
      match depth, payload.payloadFields? conventions ["item", "collection"] with
      | depth + 1, some [some item, some collection] => do
        let item ← Expr.decode depth item
        let collection ← Expr.decode depth collection
        some (.membership item collection)
      | _, _ => none
    | "Lambda" =>
      match payload with
      | .null => some .emptyLambda
      | _ => (Expr.decode depth payload).map .lambda
    | "Opaque" => payload.text?.map .foreign
    | _ => none
  | _, _ => none

def Column.decode : Nat → Tree → Option Column
  | _ + 1, t =>
    match t.fields? conventions ["name", "order", "primary"] with
    | some [some name, order, primary] => do
      let name ← name.text?
      let order ← fieldOr 0 (fun t => (t.nat? UInt32.size).map UInt32.ofNat) order
      let primary ← fieldOr false Tree.bool? primary
      some ⟨name, order, primary⟩
    | _ => none
  | _, _ => none

def Entity.decode : Nat → Tree → Option Entity
  | depth + 1, t =>
    match t.fields? conventions ["table", "columns"] with
    | some [some table, columns] => do
      let table ← table.text?
      let columns ← fieldOr [] (Tree.list? (Column.decode conventions) depth) columns
      some ⟨table, columns⟩
    | _ => none
  | _, _ => none

/-- Decodes the condition of a query, which may be null. -/
def decodePredicate (depth : Nat) : Tree → Option (Option Expr)
  | .null => some none
  | t => (Expr.decode conventions depth t).map some

/-- Decodes clauses. All of them may be left out. -/
def Clauses.decode : Nat → Tree → Option Clauses
  | depth + 1, t =>
    match t.fields? conventions ["predicate", "group_by", "order_by", "projection", "sum",
      "count", "limit", "offset"] with
    | some [predicate, groupBy, orderBy, projection, sum, count, limit, offset] => do
      let names := fieldOr [] (Tree.texts? depth)
      let number := fieldOr 0 fun t => (t.nat? UInt64.size).map UInt64.ofNat
      let predicate ← fieldOr none (decodePredicate conventions depth) predicate
      some {
        predicate
        groupBy := ← names groupBy
        orderBy := ← names orderBy
        projection := ← names projection
        sum := ← names sum
        count := ← names count
        limit := ← number limit
        offset := ← number offset }
    | _ => none
  | _, _ => none

def Query.decode : Nat → Tree → Option Query
  | depth + 1, t =>
    match t.fields? conventions ["entity", "query"] with
    | some [some entity, clauses] => do
      let entity ← Entity.decode conventions depth entity
      let clauses ← fieldOr {} (Clauses.decode conventions depth) clauses
      some ⟨entity, clauses⟩
    | _ => none
  | _, _ => none

/-- Decodes render options. All of them may be left out. -/
def RenderOptions.decode : Nat → Tree → Option RenderOptions
  | _ + 1, t =>
    match t.fields? conventions ["strict", "require_filter", "legacy_spacing"] with
    | some [strict, requireFilter, legacySpacing] => do
      let flag := fieldOr false Tree.bool?
      some ⟨← flag strict, ← flag requireFilter, ← flag legacySpacing⟩
    | _ => none
  | _, _ => none

end SqlSelect
