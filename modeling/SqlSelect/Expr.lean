import SqlSelect.Operator
import SqlSelect.Value

/-!
# Predicate trees

The expressions of which the condition of a query is built.

## Main definitions

* `Expr`, and the functions that build one: comparisons, `Expr.isIn`,
  conjunction and disjunction;
* `Expr.kind` and `Expr.nodeCount`: what is reported of a tree;
* `Expr.equal`: equality up to `Value.equal`.
-/

namespace SqlSelect

/-- A node of a predicate tree. `literal` and `computed` hold a value that was
    written down or worked out beforehand, `unary` and `lambda` wrap another tree,
    `emptyLambda` has lost its body, and `foreign` stands for an expression of the
    named kind that has no counterpart in SQL. -/
inductive Expr where
  | literal (v : Value)
  | field (name : String)
  | computed (v : Value)
  | unary (operand : Expr)
  | binary (op : Operator) (left right : Expr)
  | membership (item collection : Expr)
  | lambda (body : Expr)
  | emptyLambda
  | foreign (kind : String)

namespace Expr

/-! ### Building trees -/

def and (a b : Expr) : Expr := .binary .andAlso a b

def or (a b : Expr) : Expr := .binary .orElse a b

def eq (a b : Expr) : Expr := .binary .equal a b

def ne (a b : Expr) : Expr := .binary .notEqual a b

def gt (a b : Expr) : Expr := .binary .greaterThan a b

def gte (a b : Expr) : Expr := .binary .greaterThanOrEqual a b

def lt (a b : Expr) : Expr := .binary .lessThan a b

def lte (a b : Expr) : Expr := .binary .lessThanOrEqual a b

/-- The item is one of the collection. -/
def isIn (item collection : Expr) : Expr := .membership item collection

/-- A sequence of values that was worked out beforehand. -/
def sequence (items : List Value) : Expr := .computed (.array items)

/-! ### Observing trees -/

/-- The kind of the root node; a foreign node reports its own. -/
def kind : Expr → String
  | .literal _ => "Literal"
  | .field _ => "Field"
  | .computed _ => "Computed"
  | .unary _ => "Unary"
  | .binary .. => "Binary"
  | .membership .. => "Membership"
  | .lambda _ | .emptyLambda => "Lambda"
  | .foreign kind => kind

/-- The number of nodes of a tree. A value is part of its node. -/
def nodeCount : Expr → Nat
  | .unary e | .lambda e => 1 + e.nodeCount
  | .binary _ l r => 1 + l.nodeCount + r.nodeCount
  | .membership item collection => 1 + item.nodeCount + collection.nodeCount
  | _ => 1

/-- The same tree with equal values. -/
def equal : Expr → Expr → Bool
  | .literal a, .literal b => a.equal b
  | .field a, .field b => a == b
  | .computed a, .computed b => a.equal b
  | .unary a, .unary b => a.equal b
  | .binary f a b, .binary g c d => f == g && a.equal c && b.equal d
  | .membership a b, .membership c d => a.equal c && b.equal d
  | .lambda a, .lambda b => a.equal b
  | .emptyLambda, .emptyLambda => true
  | .foreign a, .foreign b => a == b
  | _, _ => false

end Expr

end SqlSelect
