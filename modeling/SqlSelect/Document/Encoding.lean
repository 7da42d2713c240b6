import SqlSelect.Document.Tree
import SqlSelect.Query

/-!
# Encoding queries as document trees

An alternative is a table with its name as the only key, or just its name where it
has no payload. A record is a table of all its fields in order. Decimals and
date-times are texts.

## Main definitions

* `Value.encode`, `Expr.encode`, `Clauses.encode`, `Entity.encode`, `Query.encode`.
-/

namespace SqlSelect

def Tree.variant (name : String) (payload : Tree) : Tree := .table [(name, payload)]

mutual

def Value.encode : Value → Tree
  | .null => .text "Null"
  | .bool b => .variant "Bool" (.bool b)
  | .int n => .variant "Int" (.int n.toInt)
  | .float x => .variant "Float" (.float x)
  | .decimal d => .variant "Decimal" (.text (String.ofList d.text))
  | .text s => .variant "Text" (.text s)
  | .dateTime t => .variant "DateTime" (.text (String.ofList t.isoText))
  | .array items => .variant "Array" (.list (Value.encodeList items))

def Value.encodeList : List Value → List Tree
  | [] => []
  | v :: rest => v.encode :: Value.encodeList rest

end

def Operator.encode (op : Operator) : Tree := .text op.name

def Expr.encode : Expr → Tree
  | .literal v => .variant "Literal" v.encode
  | .field name => .variant "Field" (.text name)
  | .computed v => .variant "Computed" v.encode
  | .unary e => .variant "Unary" e.encode
  | .binary op l r =>
    .variant "Binary" (.table [("op", op.encode), ("left", l.encode), ("right", r.encode)])
  | .membership item collection =>
    .variant "Membership"
      (.table [("item", item.encode), ("collection", collection.encode)])
  | .lambda body => .variant "Lambda" body.encode
  | .emptyLambda => .variant "Lambda" .null
  | .foreign kind => .variant "Opaque" (.text kind)

def Column.encode (c : Column) : Tree :=
  .table [("name", .text c.name), ("order", .int c.order.toNat), ("primary", .bool c.primary)]

def Entity.encode (e : Entity) : Tree :=
  .table [("table", .text e.table), ("columns", .list (e.columns.map Column.encode))]

def Clauses.encode (c : Clauses) : Tree :=
  .table [
    ("predicate", match c.predicate with
      | some p => p.encode
      | none => .null),
    ("group_by", .texts c.groupBy),
    ("order_by", .texts c.orderBy),
    ("projection", .texts c.projection),
    ("sum", .texts c.sum),
    ("count", .texts c.count),
    ("limit", .int c.limit.toNat),
    ("offset", .int c.offset.toNat)]

def Query.encode (q : Query) : Tree :=
  .table [("entity", q.entity.encode), ("query", q.clauses.encode)]

end SqlSelect
