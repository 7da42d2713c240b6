import SqlSelect.Proofs.Predicate.Gaps
import SqlSelect.Proofs.Text.Buffered

/-!
# Rendering under a policy

A tree is written into one buffer that all of its nodes share, under a policy that may have
a text or an error for each gap. The text before a tree decides nothing and stays as it is,
so that the text of a tree is put together from those of its parts, as in a table with one
row for each kind of node.

## Main definitions

* `Policy`, with `Policy.lenient` and `Policy.strict`;
* `Policy.write`: a tree is written into the shared buffer;
* `Policy.render`: its text in a buffer of its own;
* `Policy.FollowsTable`: the rows of the rendering table.

## Main statements

* `Policy.appendOnly_write`: writing a tree only appends;
* `Policy.followsTable_iff`: the table is followed by `Policy.render` alone;
* `Policy.textFrom_write_silent`: `Expr.write` is the case of the policies that leave the gaps
  empty which they accept;
* `Policy.write_implements_table`: what is written behind a text, the table, and the lenient
  and strict text as two cases.
-/

namespace SqlSelect

/-- What is done at the gaps of a tree. A foreign node and an operator without a token may
    be given a text, an empty collection may be accepted, and each may be an error. -/
structure Policy (ε : Type) where
  node : String → Except ε String
  operator : Operator → Except ε String
  emptyCollection : Except ε Unit

namespace Policy

open Buffered

section

variable {ε : Type}

/-- The gaps that `onGap` accepts are left empty. -/
def silent (onGap : Gap → Except ε Unit) : Policy ε where
  node kind := do
    onGap (.node kind)
    pure ""
  operator op := do
    onGap (.operator op)
    pure ""
  emptyCollection := onGap .emptyCollection

/-- Every gap is left empty. -/
def lenient : Policy Empty := silent fun _ => pure ()

/-- Every gap is an error. -/
def strict : Policy Gap := silent throw

variable (p : Policy ε)

/-- The token of an operator; one that has none is a matter of the policy. -/
def token (op : Operator) : Except ε String :=
  match op.token? with
  | some token => pure token
  | none => p.operator op

/-- The test of the text of a collection. -/
def check (items : String) : Except ε Unit :=
  if items = "" then p.emptyCollection else pure ()

/-- Writes a tree into the buffer that its nodes share. Only a collection is written into a
    buffer of its own, from where its text comes behind the item. -/
def write : Expr → Buffered ε Unit
  | .literal v | .computed v => push v.sql
  | .field name => push name
  | .unary e | .lambda e => write e
  | .binary op left right => do
    let token ← p.token op
    push "("
    write left
    push token
    write right
    push ")"
  | .membership item collection => do
    let items ← (write collection).text
    p.check items
    push "("
    write item
    push " IN ("
    push items
    push "))"
  | .emptyLambda => pure ()
  | .foreign kind => do
    let text ← p.node kind
    push text

/-- The text of a tree. -/
def render (e : Expr) : Except ε String := (p.write e).text

/-- The rendering table. Each row gives the text of a node by those of its parts; of several
    errors the one that comes first in the row counts. -/
structure FollowsTable (render : Expr → Except ε String) : Prop where
  literal (v : Value) : render (.literal v) = pure v.sql
  null : render (.literal .null) = pure "NULL"
  text (s : String) : render (.literal (.text s)) = pure ("'" ++ s ++ "'")
  dateTime (t : DateTime) :
    render (.literal (.dateTime t)) = pure ("'" ++ String.ofList t.sqlText ++ "'")
  sequence (items : List Value) :
    render (.literal (.array items)) = pure (String.intercalate "," (items.map Value.sql))
  computed (v : Value) : render (.computed v) = render (.literal v)
  field (name : String) : render (.field name) = pure name
  unary (e : Expr) : render (.unary e) = render e
  binary (op : Operator) (left right : Expr) :
    render (.binary op left right) = (do
      let token ← p.token op
      let l ← render left
      let r ← render right
      pure ("(" ++ l ++ token ++ r ++ ")"))
  membership (item collection : Expr) :
    render (.membership item collection) = (do
      let items ← render collection
      p.check items
      let text ← render item
      pure ("(" ++ text ++ " IN (" ++ items ++ "))"))
  lambda (e : Expr) : render (.lambda e) = render e
  emptyLambda : render .emptyLambda = pure ""
  foreign (kind : String) : render (.foreign kind) = p.node kind

/-! ### The shared buffer -/

theorem appendOnly_write (e : Expr) : (p.write e).AppendOnly := by
  induction e with
  | literal v => exact appendOnly_push v.sql
  | computed v => exact appendOnly_push v.sql
  | field name => exact appendOnly_push name
  | unary e ih => exact ih
  | lambda e ih => exact ih
  | binary op left right ihl ihr =>
    refine .bind (appendOnly_lift _) fun token => ?_
    refine .bind (appendOnly_push _) fun _ => ?_
    refine .bind ihl fun _ => ?_
    refine .bind (appendOnly_push _) fun _ => ?_
    exact .bind ihr fun _ => appendOnly_push _
  | membership item collection ihi _ =>
    -- What is written into the other buffer is a result here, whatever its text is.
    refine .bind (appendOnly_lift _) fun items => ?_
    refine .bind (appendOnly_lift _) fun _ => ?_
    refine .bind (appendOnly_push _) fun _ => ?_
    refine .bind ihi fun _ => ?_
    refine .bind (appendOnly_push _) fun _ => ?_
    exact .bind (appendOnly_push _) fun _ => appendOnly_push _
  | emptyLambda => exact appendOnly_pure ()
  | foreign kind => exact .bind (appendOnly_lift _) fun text => appendOnly_push text

-- A failure leaves the text before the tree, and behind it what came before the gap.
example : (strict.write (.binary .and (.field "Id") (.foreign "Block"))).run "WHERE " =
    (.error (.node "Block"), "WHERE (Id AND ") := rfl

theorem textFrom_write (e : Expr) (out : String) :
    (p.write e).textFrom out = (out ++ ·) <$> p.render e :=
  (p.appendOnly_write e).textFrom_eq out

theorem run_write_eq_ok_iff {e : Expr} {out text : String} :
    (p.write e).run out = (.ok (), text) ↔ ∃ s, p.render e = .ok s ∧ text = out ++ s := by
  rw [← textFrom_eq_ok_iff, textFrom_write]
  cases p.render e with
  | error error => simp [Functor.map, Except.map]
  | ok s => simp [Functor.map, Except.map, eq_comm]

theorem run_write_eq_error_iff {e : Expr} {out : String} {error : ε} :
    ((p.write e).run out).1 = .error error ↔ p.render e = .error error := by
  rw [← textFrom_eq_error_iff, textFrom_write]
  cases p.render e with
  | error error' => simp [Functor.map, Except.map]
  | ok s => simp [Functor.map, Except.map]

/-! ### The table -/

theorem render_literal (v : Value) : p.render (.literal v) = pure v.sql := by
  rw [render, text, write, textFrom_push, String.empty_append]

theorem render_binary (op : Operator) (left right : Expr) :
    p.render (.binary op left right) = (do
      let token ← p.token op
      let l ← p.render left
      let r ← p.render right
      pure ("(" ++ l ++ token ++ r ++ ")")) := by
  rw [render, text, write]
  simp [textFrom_write]

theorem render_membership (item collection : Expr) :
    p.render (.membership item collection) = (do
      let items ← p.render collection
      p.check items
      let text ← p.render item
      pure ("(" ++ text ++ " IN (" ++ items ++ "))")) := by
  rw [render, text, write]
  simp [textFrom_write, render]

theorem render_foreign (kind : String) : p.render (.foreign kind) = p.node kind := by
  rw [render, text, write]
  simp

theorem followsTable_render : p.FollowsTable p.render where
  literal := p.render_literal
  null := by rw [p.render_literal, Value.sql]
  text s := by rw [p.render_literal, Value.sql]
  dateTime t := by rw [p.render_literal, Value.sql]
  sequence items := by rw [p.render_literal, Value.sql, Value.sqlList_eq_intercalate]
  computed _ := rfl
  field name := by rw [render, text, write, textFrom_push, String.empty_append]
  unary _ := rfl
  binary := p.render_binary
  membership := p.render_membership
  lambda _ := rfl
  emptyLambda := rfl
  foreign := p.render_foreign

variable {p}

/-- A tree has one text by the table. -/
theorem FollowsTable.unique {f g : Expr → Except ε String} (hf : p.FollowsTable f)
    (hg : p.FollowsTable g) : f = g := by
  funext e
  induction e with
  | literal v => rw [hf.literal, hg.literal]
  | computed v => rw [hf.computed, hg.computed, hf.literal, hg.literal]
  | field name => rw [hf.field, hg.field]
  | unary e ih => rw [hf.unary, hg.unary, ih]
  | binary op left right ihl ihr => rw [hf.binary, hg.binary, ihl, ihr]
  | membership item collection ihi ihc => rw [hf.membership, hg.membership, ihi, ihc]
  | lambda e ih => rw [hf.lambda, hg.lambda, ih]
  | emptyLambda => rw [hf.emptyLambda, hg.emptyLambda]
  | foreign kind => rw [hf.foreign, hg.foreign]

theorem followsTable_iff {f : Expr → Except ε String} : p.FollowsTable f ↔ f = p.render := by
  constructor
  · intro h
    exact h.unique p.followsTable_render
  · rintro rfl
    exact p.followsTable_render

end

/-! ### Policies without texts of their own -/

section

variable {ε : Type} (onGap : Gap → Except ε Unit)

theorem operator_silent (op : Operator) :
    (silent onGap).operator op = (do onGap (.operator op); pure "") := rfl

theorem node_silent (kind : String) :
    (silent onGap).node kind = (do onGap (.node kind); pure "") := rfl

theorem check_silent (items : String) :
    (silent onGap).check items = if items = "" then onGap .emptyCollection else pure () := rfl

/-- `Expr.write` hands the text from node to node which is a shared buffer here. -/
theorem textFrom_write_silent (e : Expr) (out : String) :
    ((silent onGap).write e).textFrom out = e.write onGap out := by
  -- The right operand is written behind the left one, so `out` varies.
  induction e generalizing out with
  | unary e ih => exact ih out
  | lambda e ih => exact ih out
  | binary op left right ihl ihr =>
    rw [write, Expr.write, token]
    cases op.token? with
    | none => simp [ihl, ihr, operator_silent]
    | some token => simp [ihl, ihr]
  | membership item collection ihi ihc =>
    rw [write, Expr.write, text, ihc, textFrom_lift_bind]
    refine bind_congr fun items => ?_
    rw [textFrom_lift_bind, check_silent]
    by_cases h : items = ""
    · simp [h, ihi]
    · simp [h, ihi]
  | foreign kind =>
    rw [write, Expr.write, textFrom_lift_bind, node_silent]
    simp
  | _ => rfl

end

theorem token_lenient (op : Operator) : lenient.token op = pure (op.token?.getD "") := by
  rw [token]
  cases op.token? with
  | none => rfl
  | some token => rfl

theorem check_lenient (items : String) : lenient.check items = pure () := ite_self _

theorem token_strict (op : Operator) :
    strict.token op =
      match op.token? with
      | some token => .ok token
      | none => .error (.operator op) := by
  rw [token]
  cases op.token? with
  | none => rfl
  | some token => rfl

/-- The lenient text of a tree is put together as the table says. -/
theorem followsTable_sql : lenient.FollowsTable fun e => pure e.sql where
  literal v := by rw [Expr.sql_literal]
  null := by rw [Expr.sql_literal, Value.sql]
  text s := by rw [Expr.sql_literal, Value.sql]
  dateTime t := by rw [Expr.sql_literal, Value.sql]
  sequence items := by rw [Expr.sql_literal, Value.sql, Value.sqlList_eq_intercalate]
  computed v := by rw [Expr.sql_computed, Expr.sql_literal]
  field name := by rw [Expr.sql_field]
  unary _ := rfl
  binary op left right := by simp [token_lenient]
  membership item collection := by simp [check_lenient]
  lambda _ := rfl
  emptyLambda := rfl
  foreign _ := rfl

theorem render_lenient (e : Expr) : lenient.render e = .ok e.sql :=
  (congrFun (followsTable_iff.1 followsTable_sql) e).symm

/-- Under every policy, writing a tree behind a text fails exactly if rendering it does, with
    the same error whatever the text is. Otherwise the tree's rendering comes to stand behind
    the text, which also a failure leaves as it was. Rendering is the one function that
    follows the table. The writer that threads its text does the same under each policy which
    leaves empty the gaps that it accepts, so that the lenient and the strict text of a tree
    are its rendering under two of them. -/
theorem write_implements_table :
    (∀ (ε : Type) (p : Policy ε),
      (∀ (e : Expr) (out : String),
        (∀ error, ((p.write e).run out).1 = .error error ↔ p.render e = .error error) ∧
        (∀ text, (p.write e).run out = (.ok (), text) ↔
          ∃ s, p.render e = .ok s ∧ text = out ++ s) ∧
        ((p.write e).run out).2 = out ++ ((p.write e).run "").2) ∧
      ∀ f, p.FollowsTable f ↔ f = p.render) ∧
    (∀ (ε : Type) (onGap : Gap → Except ε Unit) (e : Expr) (out : String),
      ((silent onGap).write e).textFrom out = e.write onGap out ∧
      e.write onGap out = (out ++ ·) <$> e.write onGap "") ∧
    (∀ (e : Expr) (out : String),
      (lenient.write e).run out = (.ok (), Id.run (e.write (fun _ => pure ()) out)) ∧
      lenient.render e = .ok e.sql ∧ strict.render e = e.strictSql) ∧
    ∀ op : Operator,
      lenient.token op = .ok (op.token?.getD "") ∧
      strict.token op =
        match op.token? with
        | some token => .ok token
        | none => .error (.operator op) := by
  refine ⟨fun ε p => ⟨fun e out => ⟨?_, ?_, ?_⟩, ?_⟩, fun ε onGap e out => ⟨?_, ?_⟩,
    fun e out => ⟨?_, ?_, ?_⟩, fun op => ⟨?_, ?_⟩⟩
  · intro error
    exact p.run_write_eq_error_iff
  · intro text
    exact p.run_write_eq_ok_iff
  · exact congrArg Prod.snd (p.appendOnly_write e out)
  · intro f
    exact followsTable_iff
  · exact textFrom_write_silent onGap e out
  · rw [← textFrom_write_silent, textFrom_write, ← textFrom_write_silent]
    rfl
  · rw [Expr.write_pure]
    exact lenient.run_write_eq_ok_iff.2 ⟨e.sql, render_lenient e, rfl⟩
  · exact render_lenient e
  · exact textFrom_write_silent throw e ""
  · exact token_lenient op
  · exact token_strict op

end Policy

end SqlSelect
