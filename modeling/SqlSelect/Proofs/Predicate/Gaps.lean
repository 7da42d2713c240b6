import SqlSelect.Predicate.Rendering

/-!
# Gaps of a predicate tree

The gaps of a tree, in the order in which writing meets them, as a list. Writing
is the same in every monad: first the gaps one after another, then the text that
remains when nothing is written at them.

## Main definitions

* `Expr.gaps`: the gaps in the order of writing.

## Main statements

* `Expr.write_eq`: writing is its gaps, followed by appending `Expr.sql`;
* `Expr.strictSql_eq_ok_iff` and `Expr.strictSql_eq_error_iff`: when there is a strict
  text, and with which gap it fails;
* `Expr.strictSql_eq_firstGap`: a strict text is the lenient one, or the first gap.
-/

namespace SqlSelect.Expr

/-! ### The lenient text -/

/-- With nothing done at the gaps, writing appends the lenient text. -/
theorem write_pure (e : Expr) (out : String) :
    Id.run (e.write (fun _ => pure ()) out) = out ++ e.sql := by
  -- The right operand is written after the left one, so `out` varies.
  induction e generalizing out with
  | unary e ih => exact ih out
  | lambda e ih => exact ih out
  | binary op left right ihl ihr =>
    rw [sql, write, write]
    cases op.token? with
    | none => simp [ihl, ihr, String.append_assoc]
    | some token => simp [ihl, ihr, String.append_assoc]
  | membership item collection ihi ihc =>
    rw [sql, write, write]
    simp [ihi, ihc, String.append_assoc]
  | _ => simp [write, sql]

@[simp] theorem sql_literal (v : Value) : (literal v).sql = v.sql := by
  simp [sql, write]

@[simp] theorem sql_computed (v : Value) : (computed v).sql = v.sql := by
  simp [sql, write]

@[simp] theorem sql_field (name : String) : (field name).sql = name := by
  simp [sql, write]

@[simp] theorem sql_unary (e : Expr) : (unary e).sql = e.sql := rfl

@[simp] theorem sql_lambda (e : Expr) : (lambda e).sql = e.sql := rfl

@[simp] theorem sql_emptyLambda : emptyLambda.sql = "" := rfl

@[simp] theorem sql_foreign (kind : String) : (foreign kind).sql = "" := rfl

@[simp] theorem sql_binary (op : Operator) (left right : Expr) :
    (binary op left right).sql =
      "(" ++ left.sql ++ op.token?.getD "" ++ right.sql ++ ")" := by
  rw [sql, write]
  cases op.token? with
  | none => simp [write_pure, String.append_assoc]
  | some token => simp [write_pure, String.append_assoc]

@[simp] theorem sql_membership (item collection : Expr) :
    (membership item collection).sql =
      "(" ++ item.sql ++ " IN (" ++ collection.sql ++ "))" := by
  rw [sql, write]
  simp [write_pure, String.append_assoc]

/-! ### The gaps -/

/-- The gaps of a tree in the order of writing. The operator of a binary node comes
    before its operands; the collection of a membership node, and the gap that an
    empty one is, come before the item. -/
def gaps : Expr → List Gap
  | .literal _ | .field _ | .computed _ | .emptyLambda => []
  | .unary e | .lambda e => e.gaps
  | .binary op left right =>
    (if op.token? = none then [.operator op] else []) ++ (left.gaps ++ right.gaps)
  | .membership item collection =>
    collection.gaps ++
      ((if collection.sql = "" then [.emptyCollection] else []) ++ item.gaps)
  | .foreign kind => [.node kind]

section

variable {m : Type → Type} [Monad m] [LawfulMonad m]

/-- Writing meets the gaps of a tree in their order and then appends its lenient
    text, whatever is done at a gap. In particular the text before a tree does not
    matter, and the emptiness of a collection is that of its lenient text. -/
theorem write_eq (onGap : Gap → m Unit) (e : Expr) (out : String) :
    e.write onGap out = (do e.gaps.forM onGap; pure (out ++ e.sql)) := by
  induction e generalizing out with
  | unary e ih => exact ih out
  | lambda e ih => exact ih out
  | binary op left right ihl ihr =>
    simp only [write, gaps, ihl, ihr]
    cases h : op.token? with
    | none => simp [h, String.append_assoc]
    | some token => simp [h, String.append_assoc]
  | membership item collection ihi ihc =>
    simp only [write, gaps, ihi, ihc]
    -- The test is on the text that was written apart, which is the lenient one.
    by_cases h : collection.sql = ""
    · simp [h, String.append_assoc]
    · simp [h, String.append_assoc]
  | _ => simp [write, gaps]

end

/-! ### The strict text -/

/-- Of gaps that are errors, the first one counts. -/
theorem forM_throw (gs : List Gap) :
    (gs.forM throw : Except Gap Unit) =
      match gs with
      | [] => .ok ()
      | g :: _ => .error g := by
  cases gs with
  | nil => rfl
  | cons g rest => rfl

/-- A tree has a strict text exactly if it has no gaps, and that is its lenient text. -/
theorem strictSql_eq_ok_iff {e : Expr} {sql : String} :
    e.strictSql = .ok sql ↔ e.gaps = [] ∧ e.sql = sql := by
  rw [strictSql, write_eq, forM_throw]
  cases e.gaps with
  | nil => simp [bind, Except.bind, pure, Except.pure]
  | cons g rest => simp [bind, Except.bind]

/-- A strict text fails with the first gap of its tree. -/
theorem strictSql_eq_error_iff {e : Expr} {g : Gap} :
    e.strictSql = .error g ↔ e.gaps.head? = some g := by
  rw [strictSql, write_eq, forM_throw]
  cases e.gaps with
  | nil => simp [bind, Except.bind, pure, Except.pure]
  | cons g' rest => simp [bind, Except.bind]

theorem exists_strictSql_eq_ok_iff {e : Expr} : (∃ sql, e.strictSql = .ok sql) ↔ e.gaps = [] := by
  simp [strictSql_eq_ok_iff]

/-- A tree without gaps has its lenient text as strict text, and every other tree
    fails with the first of its gaps. -/
theorem strictSql_eq_firstGap (e : Expr) :
    e.strictSql =
      match e.gaps with
      | [] => .ok e.sql
      | g :: _ => .error g := by
  rw [strictSql, write_eq, forM_throw]
  cases e.gaps with
  | nil => simp [bind, Except.bind, pure, Except.pure]
  | cons g rest => rfl

end SqlSelect.Expr
