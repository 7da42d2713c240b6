import SqlSelect.Predicate.Typed
import SqlSelect.Query
import SqlSelect.Text.Printable

/-!
# Inspection text

A one-line description of values, predicate trees, queries and options by the
names of their parts: `Variant(payload)` for alternatives, named fields in braces
for records, and lists in brackets.

## Main definitions

* `Inspect.quoted`: a text in quotes, with escapes for what cannot be shown;
* `Value.inspect`, `Expr.inspect`, `Query.inspect` and `RenderOptions.inspect`.
-/

namespace SqlSelect

namespace Inspect

def escaped (c : Char) : List Char :=
  match c with
  | '"' => ['\\', '"']
  | '\\' => ['\\', '\\']
  | '\n' => ['\\', 'n']
  | '\r' => ['\\', 'r']
  | '\t' => ['\\', 't']
  | '\x00' => ['\\', '0']
  | c =>
    if isPrintable c then [c]
    else ['\\', 'u', '\x7b'] ++ Nat.toDigits 16 c.toNat ++ ['\x7d']

def quoted (s : String) : String :=
  "\"" ++ String.ofList (s.toList.flatMap escaped) ++ "\""

def tagged (name payload : String) : String := name ++ "(" ++ payload ++ ")"

def listed (items : List String) : String := "[" ++ String.intercalate ", " items ++ "]"

def record (name : String) (fields : List (String × String)) : String :=
  name ++ " \x7b " ++
    String.intercalate ", " (fields.map fun (field, text) => field ++ ": " ++ text) ++ " \x7d"

def names (ns : List String) : String := listed (ns.map quoted)

def maybe : Option String → String
  | none => "None"
  | some text => tagged "Some" text

def flag (b : Bool) : String := if b then "true" else "false"

/-- Whole floating-point numbers show a zero behind the point, and an exponent
    stands outside `10 ^ -4` to `10 ^ 16`. -/
def floatLayout : FloatLayout where
  tie := .up
  positional := some (-4, 15)
  wholeMark := ['.', '0']
  plusSign := []
  nan := ['N', 'a', 'N']
  infinity := some ['i', 'n', 'f']

end Inspect

open Inspect

mutual

def Value.inspect : Value → String
  | .null => "Null"
  | .bool b => tagged "Bool" (flag b)
  | .int n => tagged "Int" (String.ofList (Digits.ofInt n.toInt))
  | .float x => tagged "Float" (String.ofList (x.text Inspect.floatLayout))
  | .decimal d => tagged "Decimal" (String.ofList d.text)
  | .text s => tagged "Text" (quoted s)
  | .dateTime t => tagged "DateTime" (String.ofList t.isoText)
  | .array items => tagged "Array" (listed (Value.inspectList items))

def Value.inspectList : List Value → List String
  | [] => []
  | v :: rest => v.inspect :: Value.inspectList rest

end

def Expr.inspect : Expr → String
  | .literal v => tagged "Literal" v.inspect
  | .field name => tagged "Field" (quoted name)
  | .computed v => tagged "Computed" v.inspect
  | .unary e => tagged "Unary" e.inspect
  | .binary op l r =>
    record "Binary" [("op", op.name), ("left", l.inspect), ("right", r.inspect)]
  | .membership item collection =>
    record "Membership" [("item", item.inspect), ("collection", collection.inspect)]
  | .lambda body => tagged "Lambda" (maybe (some body.inspect))
  | .emptyLambda => tagged "Lambda" (maybe none)
  | .foreign kind => tagged "Opaque" (quoted kind)

def Clauses.inspect (c : Clauses) : String :=
  record "QuerySpec" [
    ("predicate", maybe (c.predicate.map Expr.inspect)),
    ("group_by", names c.groupBy),
    ("order_by", names c.orderBy),
    ("projection", names c.projection),
    ("sum", names c.sum),
    ("count", names c.count),
    ("limit", toString c.limit.toNat),
    ("offset", toString c.offset.toNat)]

def Query.inspect (q : Query) : String :=
  record "QueryBuilder" [("table", quoted q.entity.table), ("spec", q.clauses.inspect)]

def RenderOptions.inspect (o : RenderOptions) : String :=
  record "RenderOptions" [
    ("strict", flag o.strict),
    ("require_filter", flag o.requireFilter),
    ("legacy_spacing", flag o.legacySpacing)]

def TypedColumn.inspect {τ : ColumnType} (c : TypedColumn τ) : String :=
  tagged "Field" (quoted c.name)

def TypedColumn.inspectName {τ : ColumnType} (c : TypedColumn τ) : String :=
  tagged "FieldRef" (quoted c.name)

def Predicate.inspect (p : Predicate) : String := tagged "Predicate" p.expr.inspect

end SqlSelect
