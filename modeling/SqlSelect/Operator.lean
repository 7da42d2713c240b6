/-!
# Binary operators

The operators that a predicate tree can hold. Logical and comparison operators
have a token in SQL; arithmetic ones have none.

## Main definitions

* `Operator`, `Operator.all` and `Operator.name`;
* `Operator.token?`: the SQL token with the blanks that belong to it;
* `Operator.text`: the token without blanks, or the name.
-/

namespace SqlSelect

/-- An operator of a predicate tree. -/
inductive Operator where
  | and
  | andAlso
  | or
  | orElse
  | not
  | equal
  | notEqual
  | greaterThan
  | greaterThanOrEqual
  | lessThan
  | lessThanOrEqual
  | add
  | subtract
  | multiply
  | divide
  | modulo
  | exclusiveOr
  | coalesce
deriving DecidableEq

namespace Operator

/-- Every operator, in the order in which they are listed to a reader. -/
def all : List Operator :=
  [.and, .andAlso, .or, .orElse, .not, .equal, .notEqual, .greaterThan,
    .greaterThanOrEqual, .lessThan, .lessThanOrEqual, .add, .subtract, .multiply,
    .divide, .modulo, .exclusiveOr, .coalesce]

def name : Operator → String
  | .and => "And"
  | .andAlso => "AndAlso"
  | .or => "Or"
  | .orElse => "OrElse"
  | .not => "Not"
  | .equal => "Equal"
  | .notEqual => "NotEqual"
  | .greaterThan => "GreaterThan"
  | .greaterThanOrEqual => "GreaterThanOrEqual"
  | .lessThan => "LessThan"
  | .lessThanOrEqual => "LessThanOrEqual"
  | .add => "Add"
  | .subtract => "Subtract"
  | .multiply => "Multiply"
  | .divide => "Divide"
  | .modulo => "Modulo"
  | .exclusiveOr => "ExclusiveOr"
  | .coalesce => "Coalesce"

def ofName? (name : String) : Option Operator := all.find? fun op => op.name == name

/-- The SQL token of an operator. Word-like logical tokens bring their blanks;
    arithmetic operators have no token. -/
def token? : Operator → Option String
  | .and | .andAlso => some " AND "
  | .or | .orElse => some " OR "
  | .not => some "NOT"
  | .equal => some "="
  | .notEqual => some "!="
  | .greaterThan => some ">"
  | .greaterThanOrEqual => some ">="
  | .lessThan => some "<"
  | .lessThanOrEqual => some "<="
  | .add | .subtract | .multiply | .divide | .modulo | .exclusiveOr | .coalesce => none

/-- Conjunctions and disjunctions are logical. -/
def isLogical : Operator → Bool
  | .and | .andAlso | .or | .orElse => true
  | _ => false

/-- How an operator is shown: its token without blanks, or its name if it has
    none. -/
def text (op : Operator) : String :=
  match op.token? with
  | some token => String.ofList (token.toList.filter (· != ' '))
  | none => op.name

/-- Every name belongs to one operator. -/
theorem ofName?_name (op : Operator) : ofName? op.name = some op := by cases op <;> rfl

theorem mem_all (op : Operator) : op ∈ all := by cases op <;> decide

end Operator

end SqlSelect
