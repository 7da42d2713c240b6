import SqlSelect.Expr

/-!
# Rendering predicates

One traversal writes a predicate tree as SQL. Where the tree has no text, it
meets a `Gap`; what happens then is a parameter, in any monad.

## Main definitions

* `Gap`: an operator without a token, a foreign node, or an empty collection;
* `Expr.write`: the traversal, which appends to a text;
* `Expr.sql`: gaps are left empty;
* `Expr.strictSql`: the first gap, in the order of writing, is an error.

## Design notes

A binary node meets the gap of its operator before those of its operands. A
membership node writes its collection first, on its own, because an empty one is
a gap; the item comes before it in the text all the same.
-/

namespace SqlSelect

/-- A place in a predicate tree for which there is no SQL. -/
inductive Gap where
  | node (kind : String)
  | operator (op : Operator)
  | emptyCollection
deriving DecidableEq

def Gap.message : Gap → String
  | .node kind => "Unsupported expression: " ++ kind
  | .operator op => "Unsupported operator: " ++ op.name
  | .emptyCollection => "Membership test against an empty collection"

namespace Expr

section

variable {m : Type → Type} [Monad m]

/-- Appends the text of a tree to `out`, calling `onGap` at each gap. -/
def write (onGap : Gap → m Unit) : Expr → String → m String
  | .literal v, out | .computed v, out => pure (out ++ v.sql)
  | .field name, out => pure (out ++ name)
  | .unary e, out | .lambda e, out => e.write onGap out
  | .binary op left right, out => do
    let token ← match op.token? with
      | some token => pure token
      | none => do
        onGap (.operator op)
        pure ""
    let out ← left.write onGap (out ++ "(")
    let out ← right.write onGap (out ++ token)
    pure (out ++ ")")
  | .membership item collection, out => do
    -- Written apart from `out`, since its text is tested before the item is written.
    let items ← collection.write onGap ""
    if items = "" then onGap .emptyCollection
    let out ← item.write onGap (out ++ "(")
    pure (out ++ " IN (" ++ items ++ "))")
  | .emptyLambda, out => pure out
  | .foreign kind, out => do
    onGap (.node kind)
    pure out

end

/-- The text of a tree, with nothing at its gaps. -/
def sql (e : Expr) : String :=
  Id.run (e.write (fun _ => pure ()) "")

/-- The text of a tree without gaps, or its first gap. -/
def strictSql (e : Expr) : Except Gap String :=
  e.write throw ""

end Expr

end SqlSelect
