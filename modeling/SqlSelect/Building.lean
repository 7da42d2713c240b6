import SqlSelect.Query

/-!
# Building queries

The calls that build a query, as data. A call touches one clause: a filter joins the
condition, columns are appended to one of the lists, and a limit or an offset takes the
place of the earlier one.

## Main definitions

* `NameList`: the clauses that are lists of column names;
* `Query.Call` and `Query.Call.apply`: one call;
* `Query.build`: a sequence of calls.
-/

namespace SqlSelect

/-- The clauses that are lists of column names. -/
inductive NameList where
  | groupBy
  | orderBy
  | projection
  | sum
  | count
deriving DecidableEq

/-- The names in one of the lists. -/
def Clauses.nameList (c : Clauses) : NameList → List String
  | .groupBy => c.groupBy
  | .orderBy => c.orderBy
  | .projection => c.projection
  | .sum => c.sum
  | .count => c.count

namespace Query

/-- Appends columns to one of the lists. -/
def append (q : Query) : NameList → FieldList → Query
  | .groupBy => q.groupBy
  | .orderBy => q.orderBy
  | .projection => q.select
  | .sum => q.sum
  | .count => q.count

/-- A call that touches one clause. -/
inductive Call where
  | filter (p : Expr)
  | append (list : NameList) (fields : FieldList)
  | limit (n : UInt64)
  | offset (n : UInt64)

def Call.apply (q : Query) : Call → Query
  | .filter p => q.filter p
  | .append list fields => q.append list fields
  | .limit n => q.limit n
  | .offset n => q.offset n

/-- Makes calls one after another. -/
def build (q : Query) (calls : List Call) : Query := calls.foldl Call.apply q

end Query

end SqlSelect
