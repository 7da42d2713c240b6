import Mathlib
import SqlSelect.Proofs.Predicate.Blank
import SqlSelect.Proofs.Statement.Rendering

/-!
# Requiring a filter

A query that must have a filter is refused if no condition is stored. A stored
condition can still be blank, and its statement then has no WHERE clause.

## Main statements

* `Clauses.conditionText_eq_empty_iff`: when the WHERE fragment is empty;
* `Query.requireFilter_guards_iff`: the queries and options under which requiring a
  filter keeps statements without a WHERE clause from being rendered.
-/

namespace SqlSelect

theorem Clauses.conditionText_eq_empty_iff (c : Clauses) :
    c.conditionText = "" ↔ ∀ p ∈ c.predicate, p.Blank := by
  rw [conditionText_eq_empty_iff_predicateText]
  cases hp : c.predicate with
  | none => simp [predicateText_of_eq_none hp]
  | some p => simp [predicateText_of_eq_some hp, Expr.sql_eq_empty_iff]

namespace Query

/-- A query without a condition is refused if it must have a filter. -/
theorem render_of_predicate_eq_none {q : Query} {o : RenderOptions}
    (h : o.requireFilter = true) (hp : q.clauses.predicate = none) :
    q.render o = .error (.missingPredicate q.entity.table) := by
  simp [render, h, hp]

/-- Whether a WHERE fragment is there and empty, under options. -/
theorem conditionUnder_eq_empty_iff {q : Query} {o : RenderOptions} {p : Expr}
    (hp : q.clauses.predicate = some p) :
    q.conditionUnder o = .ok "" ↔ p.Blank ∧ (o.strict = true → p.gaps = []) := by
  have hblank : q.clauses.conditionText = "" ↔ p.Blank := by
    simp [Clauses.conditionText_eq_empty_iff, hp]
  have hgaps : q.clauses.gaps = p.gaps := by simp [Clauses.gaps, hp]
  rw [conditionUnder]
  cases o.strict with
  | false => simp [condition_eq, hblank]
  | true =>
    rw [strictCondition_eq, hgaps]
    cases p.gaps with
    | nil => simp [Except.mapError, hblank]
    | cons g rest => simp [Except.mapError]

/-- Where a filter is required, every statement that is rendered has a WHERE clause,
    unless the stored condition is blank and, under strict options, without gaps. -/
theorem requireFilter_guards_iff (q : Query) (o : RenderOptions)
    (h : o.requireFilter = true) :
    (∀ sql, q.render o = .ok sql → ∃ condition, q.conditionUnder o = .ok condition ∧
      sql = joinFragments o.legacySpacing (fragments q.entity q.clauses condition) ∧
      condition ≠ "") ↔
    ¬ ∃ p, q.clauses.predicate = some p ∧ p.Blank ∧ (o.strict = true → p.gaps = []) := by
  -- Only a stored condition passes the guard.
  cases hp : q.clauses.predicate with
  | none =>
    rw [render_of_predicate_eq_none h hp]
    simp
  | some p =>
    have hempty := conditionUnder_eq_empty_iff (o := o) hp
    rw [render_eq_conditionUnder q o (by simp [hp])]
    constructor
    · rintro hwhere ⟨p', hp', hblank⟩
      obtain rfl := Option.some.inj hp'
      have hc := hempty.2 hblank
      obtain ⟨condition, hcondition, -, hne⟩ := hwhere _ (by rw [hc]; rfl)
      rw [hc] at hcondition
      exact hne (Except.ok.inj hcondition).symm
    · intro hblank sql hsql
      cases hc : q.conditionUnder o with
      | error x => simp [hc, Except.map] at hsql
      | ok condition =>
        rw [hc] at hsql
        refine ⟨condition, rfl, (Except.ok.inj hsql).symm, ?_⟩
        rintro rfl
        exact hblank ⟨p, rfl, hempty.1 hc⟩

/-- A ledger that is read under one condition. -/
def ledgerWhere (p : Expr) : Query where
  entity := ⟨"Ledger", [⟨"Id", 1, true⟩, ⟨"Account", 2, false⟩, ⟨"Amount", 3, false⟩]⟩
  clauses := { predicate := some p }

/-- A comparison is a filter, so the statement under it has a WHERE clause. -/
theorem requireFilter_guards_comparison :
    ({ requireFilter := true } : RenderOptions).requireFilter = true ∧
      ∀ sql, (ledgerWhere ((Expr.field "Id").eq (.literal (.int 1)))).render
          { requireFilter := true } = .ok sql →
        ∃ condition, (ledgerWhere ((Expr.field "Id").eq (.literal (.int 1)))).conditionUnder
            { requireFilter := true } = .ok condition ∧
          sql = joinFragments false
            (fragments (ledgerWhere ((Expr.field "Id").eq (.literal (.int 1)))).entity
              (ledgerWhere ((Expr.field "Id").eq (.literal (.int 1)))).clauses condition) ∧
          condition ≠ "" := by
  refine ⟨rfl, (requireFilter_guards_iff _ _ rfl).2 ?_⟩
  rintro ⟨p, hp, hblank, -⟩
  obtain rfl := Option.some.inj hp
  cases hblank

/-- An empty lambda is stored as a condition and has no text: its statement is rendered
    although a filter is required, and reads the whole table. -/
theorem emptyLambda_escapes_requireFilter :
    ¬ ∀ (q : Query) (o : RenderOptions) (sql : String), o.requireFilter = true →
      q.render o = .ok sql → q.conditionUnder o ≠ .ok "" := by
  intro h
  refine h (ledgerWhere .emptyLambda) { requireFilter := true }
    "SELECT Id,Account,Amount FROM Ledger OFFSET 0 LIMIT 0" rfl ?_ rfl
  cbv

end Query

end SqlSelect
