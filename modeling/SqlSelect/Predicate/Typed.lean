import SqlSelect.Predicate.Rendering

/-!
# Typed columns

A column with the type of its values. Its comparisons accept only values of that
type, so a condition that is built from typed columns cannot compare a number
with a text.

## Main definitions

* `ColumnType` and `ColumnType.admits`: which values belong to a type;
* `TypedColumn`, its comparisons and its membership tests;
* `Predicate`: a condition, with conjunction and disjunction.
-/

namespace SqlSelect

/-- The types of typed columns. Columns of type `any` are untyped. -/
inductive ColumnType where
  | int64
  | int32
  | float
  | decimal
  | text
  | bool
  | dateTime
  | any
deriving DecidableEq

/-- A value belongs to a type. Whole numbers belong to decimal columns too. -/
def ColumnType.admits : ColumnType → Value → Bool
  | .int64, .int _ => true
  | .int32, .int n => (Int32.ofInt n.toInt).toInt == n.toInt
  | .float, .float _ => true
  | .decimal, .decimal _ => true
  | .decimal, .int _ => true
  | .text, .text _ => true
  | .bool, .bool _ => true
  | .dateTime, .dateTime _ => true
  | .any, _ => true
  | _, _ => false

abbrev ColumnType.Admitted (τ : ColumnType) : Type := { v : Value // τ.admits v = true }

/-- A column with the type of its values. -/
structure TypedColumn (τ : ColumnType) where
  name : String

/-- A condition made of typed columns. -/
structure Predicate where
  expr : Expr

namespace TypedColumn

variable {τ : ColumnType}

def expr (c : TypedColumn τ) : Expr := .field c.name

/-- The comparison of a column with a value. -/
def compare (c : TypedColumn τ) (op : Operator) (v : τ.Admitted) : Predicate :=
  ⟨.binary op c.expr (.literal v)⟩

def eq (c : TypedColumn τ) (v : τ.Admitted) : Predicate := c.compare .equal v

def ne (c : TypedColumn τ) (v : τ.Admitted) : Predicate := c.compare .notEqual v

def gt (c : TypedColumn τ) (v : τ.Admitted) : Predicate := c.compare .greaterThan v

def gte (c : TypedColumn τ) (v : τ.Admitted) : Predicate := c.compare .greaterThanOrEqual v

def lt (c : TypedColumn τ) (v : τ.Admitted) : Predicate := c.compare .lessThan v

def lte (c : TypedColumn τ) (v : τ.Admitted) : Predicate := c.compare .lessThanOrEqual v

def isIn (c : TypedColumn τ) (vs : List τ.Admitted) : Predicate :=
  ⟨c.expr.isIn (.sequence (vs.map Subtype.val))⟩

/-- A Boolean column is itself a condition. -/
def isTrue (c : TypedColumn .bool) : Predicate := ⟨c.expr⟩

end TypedColumn

namespace Predicate

def and (p q : Predicate) : Predicate := ⟨p.expr.and q.expr⟩

def or (p q : Predicate) : Predicate := ⟨p.expr.or q.expr⟩

instance : AndOp Predicate := ⟨Predicate.and⟩

instance : OrOp Predicate := ⟨Predicate.or⟩

/-- The text of a condition, with nothing at its gaps. -/
def sql (p : Predicate) : String := p.expr.sql

end Predicate

end SqlSelect
