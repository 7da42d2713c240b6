import SqlSelect.Clauses
import SqlSelect.Entity
import SqlSelect.Predicate.Rendering

/-!
# SELECT statements

A statement is the list of its fragments, from the SELECT list to the limit,
joined by blanks.

## Main definitions

* `projectionFields`: the columns that are selected;
* `selectFragment`, `fromFragment`, `whereFragment`, `groupByFragment`,
  `orderByFragment`, `offsetFragment`, `limitFragment`;
* `statement`: all of them, joined.

## Design notes

The fragments WHERE, GROUP BY and ORDER BY can be empty. An empty fragment is left
out, or, with the older spacing, kept with the blanks on both of its sides. As in
`Expr.write`, the treatment of gaps in the condition is a parameter.
-/

namespace SqlSelect

/-- The names that are requested and available, each once, in order of request. -/
def requested (available names : List String) : List String :=
  (names.filter (· ∈ available)).eraseDups

/-- The columns that are selected. Available are the grouping columns, or all
    columns if there is no grouping. The requested ones among them are selected,
    and all of them if none is requested. -/
def projectionFields (e : Entity) (c : Clauses) : List String :=
  let available := if c.groupBy = [] then e.fields else c.groupBy
  let kept := requested available c.projection
  if kept = [] then available else kept

def commaList (names : List String) : String := String.intercalate "," names

def projectionText (e : Entity) (c : Clauses) : String := commaList (projectionFields e c)

/-- An aggregate of a column under the column's own name. -/
def aggregateText (function name : String) : String :=
  function ++ "(" ++ name ++ ") AS " ++ name

/-- The sums, then the counts, each after a comma. -/
def aggregatesText (c : Clauses) : String :=
  String.join ((c.sum.map (aggregateText "SUM") ++ c.count.map (aggregateText "COUNT")).map
    ("," ++ ·))

def selectFragment (e : Entity) (c : Clauses) : String :=
  "SELECT " ++ projectionText e c ++ aggregatesText c

def fromFragment (e : Entity) : String := "FROM " ++ e.table

/-- The condition. A condition without text leaves no fragment. -/
def whereFragment {m : Type → Type} [Monad m] (onGap : Gap → m Unit) (c : Clauses) :
    m String := do
  match c.predicate with
  | none => pure ""
  | some p =>
    let text ← p.write onGap ""
    pure (if text = "" then "" else "WHERE " ++ text)

/-- A keyword with names, or nothing if there are none. -/
def listFragment (keyword : String) (names : List String) : String :=
  if names = [] then "" else keyword ++ " " ++ commaList names

def groupByFragment (c : Clauses) : String := listFragment "GROUP BY" c.groupBy

def orderByFragment (c : Clauses) : String := listFragment "ORDER BY" c.orderBy

def offsetFragment (c : Clauses) : String := "OFFSET " ++ toString c.offset.toNat

def limitFragment (c : Clauses) : String := "LIMIT " ++ toString c.limit.toNat

/-- The fragments of a statement in order, for a given WHERE fragment. -/
def fragments (e : Entity) (c : Clauses) (condition : String) : List String :=
  [selectFragment e c, fromFragment e, condition, groupByFragment c, orderByFragment c,
    offsetFragment c, limitFragment c]

/-- How fragments are joined: without the empty ones, or, with the older spacing,
    all of them. -/
def joinFragments (legacySpacing : Bool) (parts : List String) : String :=
  String.intercalate " " (if legacySpacing then parts else parts.filter (· ≠ ""))

/-- The SELECT statement of an entity and clauses. -/
def statement {m : Type → Type} [Monad m] (onGap : Gap → m Unit) (legacySpacing : Bool)
    (e : Entity) (c : Clauses) : m String := do
  let condition ← whereFragment onGap c
  pure (joinFragments legacySpacing (fragments e c condition))

end SqlSelect
