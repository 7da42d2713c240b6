import SqlSelect.FieldList
import SqlSelect.Statement

/-!
# Queries

A query reads one entity under some clauses. It is built step by step, each step
touching one clause, and rendered under options that can refuse it but never
change its text.

## Main definitions

* `Query`, with the steps `Query.filter`, `Query.groupBy`, `Query.orderBy`,
  `Query.sum`, `Query.count`, `Query.select`, `Query.limit` and `Query.offset`;
* `RenderOptions`, `RenderError` and `Query.render`;
* `Query.sql` and `Query.strictSql`.
-/

namespace SqlSelect

/-- How a query is rendered: whether a gap in its condition is an error, whether a
    query without a condition is refused, and whether empty fragments keep their
    blanks. -/
structure RenderOptions where
  strict : Bool := false
  requireFilter : Bool := false
  legacySpacing : Bool := false
deriving DecidableEq

/-- Every flag that is set in one of the options. -/
def RenderOptions.union (a b : RenderOptions) : RenderOptions where
  strict := a.strict || b.strict
  requireFilter := a.requireFilter || b.requireFilter
  legacySpacing := a.legacySpacing || b.legacySpacing

/-- Why a query is not rendered. -/
inductive RenderError where
  | gap (g : Gap)
  | missingPredicate (table : String)
deriving DecidableEq

def RenderError.message : RenderError → String
  | .gap g => g.message
  | .missingPredicate table =>
    "Missing predicate: refusing to select from '" ++ table ++ "' without a filter"

/-- An entity and the clauses under which it is read. -/
structure Query where
  entity : Entity
  clauses : Clauses := {}

namespace Query

/-! ### Building -/

/-- Adds a condition. -/
def filter (q : Query) (p : Expr) : Query :=
  { q with clauses := q.clauses.addPredicate p }

def groupBy (q : Query) (fields : FieldList) : Query :=
  { q with clauses.groupBy := fields.appendTo q.clauses.groupBy }

def orderBy (q : Query) (fields : FieldList) : Query :=
  { q with clauses.orderBy := fields.appendTo q.clauses.orderBy }

def sum (q : Query) (fields : FieldList) : Query :=
  { q with clauses.sum := fields.appendTo q.clauses.sum }

def count (q : Query) (fields : FieldList) : Query :=
  { q with clauses.count := fields.appendTo q.clauses.count }

def select (q : Query) (fields : FieldList) : Query :=
  { q with clauses.projection := fields.appendTo q.clauses.projection }

def limit (q : Query) (n : UInt64) : Query :=
  { q with clauses.limit := n }

def offset (q : Query) (n : UInt64) : Query :=
  { q with clauses.offset := n }

/-! ### Rendering -/

def fields (q : Query) : List String := projectionFields q.entity q.clauses

/-- The WHERE fragment with nothing at the gaps of the condition. -/
def condition (q : Query) : String := Id.run (whereFragment (fun _ => pure ()) q.clauses)

/-- The statement with nothing at the gaps of the condition. -/
def renderLenient (q : Query) (legacySpacing : Bool) : String :=
  Id.run (statement (fun _ => pure ()) legacySpacing q.entity q.clauses)

/-- The statement of a query whose condition has no gaps. -/
def renderStrict (q : Query) (legacySpacing : Bool) : Except Gap String :=
  statement throw legacySpacing q.entity q.clauses

/-- Renders a query under options. A missing condition is noticed before any gap. -/
def render (q : Query) (options : RenderOptions) : Except RenderError String :=
  if options.requireFilter && q.clauses.predicate.isNone then
    .error (.missingPredicate q.entity.table)
  else if options.strict then
    (q.renderStrict options.legacySpacing).mapError .gap
  else
    .ok (q.renderLenient options.legacySpacing)

def sql (q : Query) : String := q.renderLenient false

/-- The statement where gaps are errors and all else is at its default. -/
def strictSql (q : Query) : Except RenderError String := q.render { strict := true }

/-- Equality with equal values in the condition. -/
def equal (a b : Query) : Bool := a.entity == b.entity && a.clauses.equal b.clauses

end Query

end SqlSelect
