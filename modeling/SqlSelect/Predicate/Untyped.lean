import SqlSelect.Expr

/-!
# Untyped conditions

Conditions on columns that are given by their names alone. Nothing is said of the type of
a column, so every value can be compared with it.

## Main definitions

* `Untyped.column`: a column by its name;
* `Untyped.compare` with its six comparisons, and `Untyped.isIn`;
* `Untyped.and` and `Untyped.or`.
-/

namespace SqlSelect.Untyped

def column (name : String) : Expr := .field name

/-- The comparison of a column with a value. -/
def compare (name : String) (op : Operator) (v : Value) : Expr :=
  .binary op (column name) (.literal v)

def eq (name : String) (v : Value) : Expr := compare name .equal v

def ne (name : String) (v : Value) : Expr := compare name .notEqual v

def gt (name : String) (v : Value) : Expr := compare name .greaterThan v

def gte (name : String) (v : Value) : Expr := compare name .greaterThanOrEqual v

def lt (name : String) (v : Value) : Expr := compare name .lessThan v

def lte (name : String) (v : Value) : Expr := compare name .lessThanOrEqual v

/-- The values of a column are among the given ones. -/
def isIn (name : String) (vs : List Value) : Expr := (column name).isIn (.sequence vs)

def and (left right : Expr) : Expr := .binary .andAlso left right

def or (left right : Expr) : Expr := .binary .orElse left right

end SqlSelect.Untyped
