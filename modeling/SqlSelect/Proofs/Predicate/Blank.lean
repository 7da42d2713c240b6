import SqlSelect.Proofs.Predicate.Gaps
import SqlSelect.Proofs.Value.Characters

/-!
# Blank predicates

The values and the predicate trees that have no text. They are described by their
shape, without writing them.

## Main definitions

* `Value.Blank` and `Expr.Blank`;
* `Expr.IsCompound`: under its wrappers the tree is a binary or a membership node.

## Main statements

* `Value.sql_eq_empty_iff` and `Expr.sql_eq_empty_iff`: to have no text is to be
  blank.
-/

namespace SqlSelect

/-- An empty sequence, or a sequence of one item that is itself blank. -/
inductive Value.Blank : Value → Prop
  | empty : Blank (.array [])
  | single {v : Value} (h : v.Blank) : Blank (.array [v])

/-- A value has no text exactly if it is blank: two items have a comma between them,
    and all that is no sequence has a text of its own. -/
theorem Value.sql_eq_empty_iff (v : Value) : v.sql = "" ↔ v.Blank := by
  cases v with
  | array items =>
    match items with
    | [] => exact iff_of_true rfl .empty
    | [v] =>
      have hv : (array [v]).sql = v.sql := rfl
      rw [hv, sql_eq_empty_iff v]
      exact ⟨.single, fun h => by cases h with | single h => exact h⟩
    | v :: w :: rest =>
      refine iff_of_false ?_ (fun h => by cases h)
      simp [sql, sqlList]
  | _ => exact iff_of_false (sql_ne_empty_of_scalar rfl) (fun h => by cases h)

/-- Under its wrappers the tree is an empty lambda, a foreign node, a column without
    a name, or a blank value. -/
inductive Expr.Blank : Expr → Prop
  | literal {v : Value} (h : v.Blank) : Blank (.literal v)
  | computed {v : Value} (h : v.Blank) : Blank (.computed v)
  | field : Blank (.field "")
  | unary {e : Expr} (h : e.Blank) : Blank (.unary e)
  | lambda {e : Expr} (h : e.Blank) : Blank (.lambda e)
  | emptyLambda : Blank .emptyLambda
  | foreign (kind : String) : Blank (.foreign kind)

namespace Expr

theorem Blank.sql_eq {e : Expr} (h : e.Blank) : e.sql = "" := by
  induction h with
  | literal hv => rw [sql_literal, Value.sql_eq_empty_iff]; exact hv
  | computed hv => rw [sql_computed, Value.sql_eq_empty_iff]; exact hv
  | field => rfl
  | unary _ ih => exact ih
  | lambda _ ih => exact ih
  | emptyLambda => rfl
  | foreign kind => rfl

theorem blank_of_sql_eq {e : Expr} (h : e.sql = "") : e.Blank := by
  induction e with
  | literal v => exact .literal ((Value.sql_eq_empty_iff v).1 (by simpa using h))
  | computed v => exact .computed ((Value.sql_eq_empty_iff v).1 (by simpa using h))
  | field name =>
    obtain rfl : name = "" := by simpa using h
    exact .field
  | unary e ih => exact .unary (ih h)
  | lambda e ih => exact .lambda (ih h)
  -- A node has its parentheses at least.
  | binary op left right => simp at h
  | membership item collection => simp at h
  | emptyLambda => exact .emptyLambda
  | foreign kind => exact .foreign kind

/-- A tree has no text exactly if it is blank. -/
theorem sql_eq_empty_iff (e : Expr) : e.sql = "" ↔ e.Blank :=
  ⟨blank_of_sql_eq, Blank.sql_eq⟩

instance (e : Expr) : Decidable e.Blank := decidable_of_iff _ e.sql_eq_empty_iff

/-! ### Compound trees -/

/-- Under its wrappers the tree is a binary or a membership node. -/
inductive IsCompound : Expr → Prop
  | binary (op : Operator) (left right : Expr) : IsCompound (.binary op left right)
  | membership (item collection : Expr) : IsCompound (.membership item collection)
  | unary {e : Expr} (h : e.IsCompound) : IsCompound (.unary e)
  | lambda {e : Expr} (h : e.IsCompound) : IsCompound (.lambda e)

/-- A node has its parentheses at least, so it is not blank. -/
theorem IsCompound.not_blank {e : Expr} (h : e.IsCompound) : ¬e.Blank := by
  intro hblank
  induction h with
  | binary op left right => cases hblank
  | membership item collection => cases hblank
  | unary _ ih =>
    cases hblank with
    | unary hblank => exact ih hblank
  | lambda _ ih =>
    cases hblank with
    | lambda hblank => exact ih hblank

end Expr

end SqlSelect
