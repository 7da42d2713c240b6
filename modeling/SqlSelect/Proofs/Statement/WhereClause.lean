import SqlSelect.Proofs.Statement.Building
import SqlSelect.Proofs.Statement.Filtering

/-!
# Statements without a WHERE clause

A statement has a WHERE clause unless its condition is missing or blank. Filters that are
joined are never blank together, whatever each of them is, so a query loses its WHERE
clause only if it has a single filter.

## Main statements

* `Expr.isCompound_of_conjunction`: the conjunction of two trees or more is compound;
* `Query.condition_of_not_blank`: the WHERE fragment of a condition with a text;
* `Query.condition_eq_empty_iff_blank`: when the WHERE fragment disappears.
-/

namespace SqlSelect

/-! ### Conjunctions -/

namespace Expr

theorem isCompound_foldl_and {e : Expr} (h : e.IsCompound) (ps : List Expr) :
    (ps.foldl (.binary .andAlso) e).IsCompound := by
  induction ps generalizing e with
  | nil => exact h
  | cons p ps ih => exact ih (.binary .andAlso e p)

/-- Trees of which there are at least two have a conjunction, and it is compound. -/
theorem isCompound_of_conjunction {es : List Expr} (h : 2 ≤ es.length) :
    ∃ e, conjunction es = some e ∧ e.IsCompound := by
  match es, h with
  | p :: r :: ps, _ =>
    exact ⟨_, rfl, isCompound_foldl_and (.binary .andAlso p r) ps⟩

end Expr

namespace Query

variable {q : Query} {p : Expr}

/-- A condition that is not blank is written after its keyword. -/
theorem condition_of_not_blank (hp : q.clauses.predicate = some p) (h : ¬p.Blank) :
    q.condition = "WHERE " ++ p.sql := by
  have hne : p.sql ≠ "" := by
    intro hempty
    exact h ((Expr.sql_eq_empty_iff p).1 hempty)
  rw [condition_eq, Clauses.conditionText, Clauses.predicateText_of_eq_some hp, if_neg hne]

theorem condition_ne_empty_of_isCompound (hp : q.clauses.predicate = some p)
    (h : p.IsCompound) : q.condition ≠ "" := by
  rw [condition_of_not_blank hp h.not_blank]
  simp

/-- The WHERE fragment is empty exactly if there is no condition or a blank one; otherwise it
    is the text of the condition after its keyword. The condition of a query is not blank if
    its root is a binary or a membership node, nor if it has at least two filters, among
    whatever other calls they were added. -/
theorem condition_eq_empty_iff_blank (q : Query) :
    (q.condition = "" ↔
        q.clauses.predicate = none ∨ ∃ p, q.clauses.predicate = some p ∧ p.Blank) ∧
      (∀ p, q.clauses.predicate = some p → ¬p.Blank → q.condition = "WHERE " ++ p.sql) ∧
      (∀ p, q.clauses.predicate = some p → p.IsCompound → q.condition ≠ "") ∧
      ∀ calls : List Call,
        2 ≤ q.clauses.predicate.toList.length + (calls.filterMap Call.filter?).length →
        (q.build calls).condition ≠ "" := by
  refine ⟨?_, fun p => condition_of_not_blank, fun p => condition_ne_empty_of_isCompound, ?_⟩
  · rw [condition_eq, Clauses.conditionText_eq_empty_iff]
    cases q.clauses.predicate with
    | none => simp
    | some p => simp
  · intro calls hcalls
    have hlength : 2 ≤ (q.clauses.predicate.toList ++ calls.filterMap Call.filter?).length := by
      rw [List.length_append]
      exact hcalls
    obtain ⟨p, hp, hcompound⟩ := Expr.isCompound_of_conjunction hlength
    have hbuilt := (built_build q calls).predicate
    exact condition_ne_empty_of_isCompound (hbuilt.trans hp) hcompound

/-- An empty lambda and a foreign node as filters, with a limit between them. -/
def blankCalls : List Call := [.filter .emptyLambda, .limit 3, .filter (.foreign "Parameter")]

/-- One blank filter leaves no WHERE clause, and a second one brings it back. -/
theorem condition_eq_empty_iff_blank_blankCalls :
    ((Query.mk { table := "Ledger" } {}).filter .emptyLambda).condition = "" ∧
      2 ≤ (blankCalls.filterMap Call.filter?).length ∧
      ((Query.mk { table := "Ledger" } {}).build blankCalls).condition ≠ "" ∧
      ((Query.mk { table := "Ledger" } {}).build blankCalls).condition = "WHERE ( AND )" := by
  have hlength : 2 ≤ (blankCalls.filterMap Call.filter?).length := by decide
  have hone := (condition_eq_empty_iff_blank
    ((Query.mk { table := "Ledger" } {}).filter .emptyLambda)).1
  have hpredicate : ((Query.mk { table := "Ledger" } {}).build blankCalls).clauses.predicate =
      some (Expr.and .emptyLambda (.foreign "Parameter")) := rfl
  obtain ⟨-, htext, -⟩ :=
    condition_eq_empty_iff_blank ((Query.mk { table := "Ledger" } {}).build blankCalls)
  obtain ⟨-, -, -, hbuilt⟩ := condition_eq_empty_iff_blank (Query.mk { table := "Ledger" } {})
  refine ⟨hone.2 (.inr ⟨_, rfl, .emptyLambda⟩), hlength, hbuilt blankCalls ?_, ?_⟩
  · simpa using hlength
  · exact htext _ hpredicate (Expr.IsCompound.binary _ _ _).not_blank

end Query

end SqlSelect
