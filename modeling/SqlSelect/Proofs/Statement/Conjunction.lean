import SqlSelect.Proofs.Statement.Building
import SqlSelect.Proofs.Statement.Rendering

/-!
# Chained filters

Filters that are added one after another make one condition, their conjunction. What the
condition says can be read off the filters: its conjuncts are theirs, in the order of the
calls, and under strict rendering the first filter that has no text of its own decides.

## Main definitions

* `Expr.conjuncts`: the trees that a conjunction joins, from left to right;
* `Expr.FailsFirst`: the gap of the first of several trees that has one;
* `Expr.Conjoins`: one tree stands for several trees;
* `Query.withPredicate`: a query under another condition.

## Main statements

* `Expr.conjoins_of_conjunction`: trees that are joined from the left;
* `Query.build_filters`: a chain of filters touches nothing but the condition;
* `Query.exists_conjoins_build_filters`: a chain of filters means its conjunction.
-/

namespace SqlSelect

namespace Expr

/-! ### Conjuncts -/

/-- Trees of which there is at least one have a conjunction. -/
theorem exists_conjunction {es : List Expr} (h : es ≠ []) : ∃ e, conjunction es = some e := by
  obtain ⟨p, ps, rfl⟩ := List.exists_cons_of_ne_nil h
  exact ⟨_, rfl⟩

/-- The trees that conjunctions join, from left to right. A tree with another root is its
    own only conjunct. -/
def conjuncts : Expr → List Expr
  | .binary .andAlso left right => left.conjuncts ++ right.conjuncts
  | e => [e]

theorem conjuncts_and (left right : Expr) :
    (left.and right).conjuncts = left.conjuncts ++ right.conjuncts := rfl

theorem sql_and (left right : Expr) :
    (left.and right).sql = "(" ++ left.sql ++ " AND " ++ right.sql ++ ")" :=
  sql_binary .andAlso left right

/-- A conjunction is no gap itself. -/
theorem gaps_and (left right : Expr) : (left.and right).gaps = left.gaps ++ right.gaps := by
  simp [Expr.and, gaps, Operator.token?]

section

variable {α : Type} {f : Expr → List α}

/-- What is collected from both sides of every conjunction is collected from trees that are
    joined from the left one after another. -/
theorem flatMap_foldl_and (hf : ∀ l r, f (Expr.and l r) = f l ++ f r) (p : Expr)
    (ps : List Expr) : f (ps.foldl Expr.and p) = (p :: ps).flatMap f := by
  induction ps generalizing p with
  | nil => simp
  | cons r ps ih =>
    rw [List.foldl_cons, ih, List.flatMap_cons, List.flatMap_cons, List.flatMap_cons, hf,
      List.append_assoc]

theorem eq_flatMap_of_conjunction (hf : ∀ l r, f (Expr.and l r) = f l ++ f r) {es : List Expr}
    {e : Expr} (h : conjunction es = some e) : f e = es.flatMap f := by
  cases es with
  | nil => cases h
  | cons p ps =>
    obtain rfl := Option.some.inj h
    exact flatMap_foldl_and hf p ps

end

/-! ### The first failure -/

/-- Of the trees, taken in order, the first one without a strict text fails with this
    gap. -/
def FailsFirst (es : List Expr) (g : Gap) : Prop :=
  ∃ before e after, es = before ++ e :: after ∧
    (∀ d ∈ before, ∃ sql, d.strictSql = .ok sql) ∧ e.strictSql = .error g

theorem failsFirst_iff {es : List Expr} {g : Gap} :
    FailsFirst es g ↔ (es.flatMap gaps).head? = some g := by
  rw [List.head?_flatMap, List.findSome?_eq_some_iff]
  simp only [FailsFirst, exists_strictSql_eq_ok_iff, strictSql_eq_error_iff,
    List.head?_eq_none_iff]
  constructor
  · rintro ⟨before, e, after, hes, hbefore, he⟩
    exact ⟨before, e, after, hes, he, hbefore⟩
  · rintro ⟨before, e, after, hes, he, hbefore⟩
    exact ⟨before, e, after, hes, hbefore, he⟩

/-! ### Trees for several trees -/

/-- The tree `e` stands for the trees `es`: none of their conjuncts is lost, repeated or
    grouped in another way, and its strict text fails where the first of theirs does. -/
structure Conjoins (es : List Expr) (e : Expr) : Prop where
  conjuncts : e.conjuncts = es.flatMap Expr.conjuncts
  strict : (∃ sql, e.strictSql = .ok sql) ↔ ∀ d ∈ es, ∃ sql, d.strictSql = .ok sql
  failure : ∀ g, e.strictSql = .error g ↔ FailsFirst es g

theorem conjoins_of_conjunction {es : List Expr} {e : Expr} (h : conjunction es = some e) :
    Conjoins es e := by
  have hgaps : e.gaps = es.flatMap gaps := eq_flatMap_of_conjunction gaps_and h
  refine ⟨eq_flatMap_of_conjunction conjuncts_and h, ?_, fun g => ?_⟩
  · simp only [exists_strictSql_eq_ok_iff]
    rw [hgaps, List.flatMap_eq_nil_iff]
  · rw [strictSql_eq_error_iff, failsFirst_iff, hgaps]

end Expr

namespace Query

/-! ### Chains of filters -/

/-- The query under another condition. -/
def withPredicate (q : Query) (p : Option Expr) : Query :=
  { q with clauses := { q.clauses with predicate := p } }

@[simp] theorem predicate_withPredicate (q : Query) (p : Option Expr) :
    (q.withPredicate p).clauses.predicate = p := rfl

theorem withPredicate_self (q : Query) : q.withPredicate q.clauses.predicate = q := rfl

/-- A filter joins the condition at its end, and touches nothing else. -/
theorem filter_eq_withPredicate (q : Query) (p : Expr) :
    q.filter p = q.withPredicate (Expr.conjunction (q.clauses.predicate.toList ++ [p])) := by
  rw [← predicate_filter]
  rfl

/-- A chain of filters joins the condition in the order of the calls, and touches nothing
    else. -/
theorem build_filters (q : Query) (ps : List Expr) :
    q.build (ps.map .filter) =
      q.withPredicate (Expr.conjunction (q.clauses.predicate.toList ++ ps)) := by
  induction ps generalizing q with
  | nil => rw [List.append_nil, Expr.conjunction_toList]; rfl
  | cons p ps ih =>
    have hstep : q.build ((p :: ps).map .filter) = (q.filter p).build (ps.map .filter) := rfl
    rw [hstep, ih, predicate_filter, ← Expr.conjunction_append, List.append_assoc]
    rfl

/-- The WHERE fragment of a query depends on its condition alone. -/
theorem condition_congr {q q' : Query} (h : q.clauses.predicate = q'.clauses.predicate) :
    q.condition = q'.condition := by
  rw [condition_eq, condition_eq, Clauses.conditionText, Clauses.conditionText,
    Clauses.predicateText, Clauses.predicateText, h]

/-- A chain of filters means the conjunction of the earlier condition and all filters. If
    there was no condition, the chain is written like one filter with that conjunction. -/
theorem exists_conjoins_build_filters (q : Query) (p : Expr) (ps : List Expr) :
    (∃ e, (q.build ((p :: ps).map .filter)).clauses.predicate = some e ∧
      Expr.Conjoins (q.clauses.predicate.toList ++ p :: ps) e) ∧
    (q.clauses.predicate = none →
      (q.build ((p :: ps).map .filter)).condition =
        (q.filter (ps.foldl Expr.and p)).condition) := by
  rw [build_filters, predicate_withPredicate]
  constructor
  · have hne : q.clauses.predicate.toList ++ p :: ps ≠ [] := by simp
    obtain ⟨e, he⟩ := Expr.exists_conjunction hne
    exact ⟨e, he, Expr.conjoins_of_conjunction he⟩
  · intro hnone
    refine condition_congr ?_
    rw [predicate_withPredicate, predicate_filter, hnone]
    rfl

/-- A table of payments, read without a condition. -/
def payments : Query where
  entity := { table := "Payments" }

theorem exists_conjoins_build_filters_payments :
    payments.clauses.predicate = none ∧
      (payments.build ([Expr.field "Open", .foreign "Parameter", .field "Due"].map
        .filter)).condition =
      (payments.filter (((Expr.field "Open").and (.foreign "Parameter")).and
        (.field "Due"))).condition := by
  have hnone : payments.clauses.predicate = none := rfl
  exact ⟨hnone, (exists_conjoins_build_filters payments (.field "Open")
    [.foreign "Parameter", .field "Due"]).2 hnone⟩

end Query

end SqlSelect
