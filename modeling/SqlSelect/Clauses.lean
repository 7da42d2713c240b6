import SqlSelect.Expr

/-!
# Clauses of a query

What a query asks for, apart from the table it reads: a condition, lists of
column names, and a page.

## Main definitions

* `Clauses`;
* `Clauses.addPredicate`: narrowing by one more condition.
-/

namespace SqlSelect

/-- The clauses of a query. A limit and an offset of zero are written like any
    other. -/
structure Clauses where
  predicate : Option Expr := none
  groupBy : List String := []
  orderBy : List String := []
  projection : List String := []
  sum : List String := []
  count : List String := []
  limit : UInt64 := 0
  offset : UInt64 := 0

namespace Clauses

/-- Narrows a query by one more condition, which joins the earlier ones at the
    end of their conjunction. -/
def addPredicate (c : Clauses) (p : Expr) : Clauses :=
  { c with predicate := some (match c.predicate with
      | some earlier => earlier.and p
      | none => p) }

/-- Equality with equal values in the condition. -/
def equal (a b : Clauses) : Bool :=
  (match a.predicate, b.predicate with
    | some p, some q => p.equal q
    | none, none => true
    | _, _ => false) &&
  a.groupBy == b.groupBy && a.orderBy == b.orderBy && a.projection == b.projection &&
  a.sum == b.sum && a.count == b.count && a.limit == b.limit && a.offset == b.offset

end Clauses

end SqlSelect
