import Mathlib
import SqlSelect.Proofs.Statement.Conjunction
import SqlSelect.Proofs.Statement.Filtering
import SqlSelect.Proofs.Statement.Spacing

/-!
# Blank filters

A condition without text leaves no WHERE fragment. A filter without text is joined to the
other filters all the same, and its empty operand shows: a chain of filters is written like
the chain without it only if there is nothing else in the chain.

## Main statements

* `Expr.length_sql_conjunction`: the length of a chain, filter by filter;
* `Query.renderLenient_withPredicate_eq_iff`: two conditions of one query are written alike
  only if they have one text;
* `Query.renderLenient_blank_iff`: where a blank filter goes unnoticed;
* `Query.sql_filter_blank`: what a blank filter does to the statement of a query.
-/

namespace SqlSelect

/-! ### The length of a chain -/

namespace Expr

theorem length_sql_and (left right : Expr) :
    (left.and right).sql.length = left.sql.length + (right.sql.length + 7) := by
  have hparens : "(".length = 1 ∧ ")".length = 1 := ⟨rfl, rfl⟩
  have htoken : " AND ".length = 5 := rfl
  simp only [sql_and, String.length_append, hparens, htoken]
  omega

/-- Each filter after the first one brings two parentheses and a token. -/
theorem length_sql_foldl_and (p : Expr) (ps : List Expr) :
    (ps.foldl Expr.and p).sql.length =
      p.sql.length + (ps.map fun r => r.sql.length + 7).sum := by
  induction ps generalizing p with
  | nil => rfl
  | cons r ps ih =>
    rw [List.foldl_cons, ih, length_sql_and, List.map_cons, List.sum_cons, Nat.add_assoc]

theorem length_sql_conjunction {es : List Expr} {e : Expr} (h : conjunction es = some e) :
    e.sql.length + 7 = (es.map fun d => d.sql.length + 7).sum := by
  cases es with
  | nil => cases h
  | cons p ps =>
    obtain rfl := Option.some.inj h
    have hlength : (ps.foldl (.binary .andAlso) p).sql.length = _ := length_sql_foldl_and p ps
    rw [hlength, List.map_cons, List.sum_cons]
    omega

end Expr

/-! ### Conditions that are written alike -/

theorem Clauses.conditionText_inj {c c' : Clauses} :
    c.conditionText = c'.conditionText ↔ c.predicateText = c'.predicateText := by
  refine ⟨fun h => ?_, fun h => by rw [conditionText, conditionText, h]⟩
  have hwhere : ∀ text : String, "WHERE " ++ text ≠ "" := fun text => by simp
  rw [conditionText, conditionText] at h
  split at h
  · rename_i hempty
    split at h
    · rename_i hempty'
      rw [hempty, hempty']
    · exact absurd h.symm (hwhere _)
  · split at h
    · exact absurd h (hwhere _)
    · exact (String.append_right_inj "WHERE ").1 h

namespace Query

/-- Two conditions of one query are written alike only if they have one text. -/
theorem renderLenient_withPredicate_eq_iff (q : Query) (p p' : Option Expr)
    (legacySpacing : Bool) :
    (q.withPredicate p).renderLenient legacySpacing =
        (q.withPredicate p').renderLenient legacySpacing ↔
      (p.map Expr.sql).getD "" = (p'.map Expr.sql).getD "" := by
  have htext : ∀ p, (q.withPredicate p).clauses.predicateText = (p.map Expr.sql).getD "" :=
    fun p => rfl
  -- The condition stands between fragments that do not depend on it.
  have hform : ∀ p, (q.withPredicate p).renderLenient legacySpacing =
      selectFragment q.entity q.clauses ++ (" " ++ fromFragment q.entity ++
        (spaced legacySpacing (q.withPredicate p).clauses.conditionText ++
          (spaced legacySpacing (groupByFragment q.clauses) ++
            (spaced legacySpacing (orderByFragment q.clauses) ++
              (" " ++ offsetFragment q.clauses ++ (" " ++ limitFragment q.clauses)))))) := by
    intro p
    rw [renderLenient_eq, joinFragments_fragments]
    rfl
  rw [hform, hform, String.append_right_inj, String.append_right_inj, String.append_left_inj,
    spaced_inj, Clauses.conditionText_inj, htext, htext]

/-! ### Blank filters in a chain -/

/-- A blank filter goes unnoticed only if nothing stands before it and nothing behind. -/
theorem renderLenient_blank_iff (q : Query) {p : Expr} (hp : p.sql = "") (before after : List Expr)
    (legacySpacing : Bool) :
    (q.withPredicate (Expr.conjunction (before ++ p :: after))).renderLenient legacySpacing =
        (q.withPredicate (Expr.conjunction (before ++ after))).renderLenient legacySpacing ↔
      before ++ after = [] := by
  rw [renderLenient_withPredicate_eq_iff]
  constructor
  · intro h
    by_contra hne
    obtain ⟨e, he⟩ := Expr.exists_conjunction hne
    obtain ⟨e', he'⟩ := Expr.exists_conjunction
      (List.append_ne_nil_of_right_ne_nil before (List.cons_ne_nil p after))
    have hlength := Expr.length_sql_conjunction he
    have hlength' := Expr.length_sql_conjunction he'
    have hp0 : p.sql.length = 0 := by rw [hp]; rfl
    -- The blank filter makes the chain longer by its parentheses and its token.
    rw [he, he', Option.map_some, Option.map_some, Option.getD_some, Option.getD_some] at h
    simp only [List.map_append, List.map_cons, List.sum_append, List.sum_cons, h, hp0] at *
    omega
  · intro hnil
    obtain ⟨rfl, rfl⟩ := List.append_eq_nil_iff.1 hnil
    exact hp

/-- A blank filter leaves the statement of a query as it is exactly if the query has no
    condition. Otherwise its empty operand is written behind the condition, and no further
    filter makes it go unnoticed. -/
theorem sql_filter_blank (q : Query) {p : Expr} (hp : p.sql = "") :
    ((q.filter p).sql = q.sql ↔ q.clauses.predicate = none) ∧
      (∀ e, q.clauses.predicate = some e →
        (q.filter p).condition = "WHERE (" ++ e.sql ++ " AND )") ∧
      ∀ r, ((q.filter p).filter r).sql ≠ (q.filter r).sql := by
  refine ⟨?_, fun e he => ?_, fun r => ?_⟩
  · have hself : q = q.withPredicate (Expr.conjunction (q.clauses.predicate.toList ++ [])) := by
      rw [List.append_nil, Expr.conjunction_toList, withPredicate_self]
    have hiff := renderLenient_blank_iff q hp q.clauses.predicate.toList [] false
    rw [← hself, ← filter_eq_withPredicate, List.append_nil, Option.toList_eq_nil_iff] at hiff
    exact hiff
  · have htext : (q.filter p).clauses.predicateText = (e.and p).sql := by
      rw [Clauses.predicateText, predicate_filter, he]
      rfl
    rw [condition_eq, Clauses.conditionText, htext, Expr.sql_and, hp, ← String.toList_inj]
    simp
  · have hchain : (q.filter p).filter r =
        q.withPredicate (Expr.conjunction (q.clauses.predicate.toList ++ p :: [r])) :=
      build_filters q [p, r]
    have hiff := renderLenient_blank_iff q hp q.clauses.predicate.toList [r] false
    rw [← hchain, ← filter_eq_withPredicate] at hiff
    intro h
    have hnil := hiff.1 h
    simp at hnil

/-- A computed value that is an empty sequence in a sequence. -/
def computedNothing : Expr := .computed (.array [.array []])

/-- The query for one entry of the ledger. -/
def firstEntry : Query := ledgerWhere ((Expr.field "Id").eq (.literal (.int 1)))

theorem sql_filter_blank_computedNothing :
    computedNothing.sql = "" ∧ (firstEntry.filter computedNothing).sql ≠ firstEntry.sql ∧
      (firstEntry.filter computedNothing).condition = "WHERE ((Id=1) AND )" ∧
      ((firstEntry.filter computedNothing).filter (.field "Open")).sql ≠
        (firstEntry.filter (.field "Open")).sql := by
  have hblank : computedNothing.sql = "" := rfl
  obtain ⟨hself, hcondition, hlater⟩ := sql_filter_blank firstEntry hblank
  refine ⟨hblank, fun h => ?_, ?_, hlater _⟩
  · have hnone : firstEntry.clauses.predicate = none := hself.1 h
    cases hnone
  · exact hcondition _ rfl

/-- A blank filter behind another one changes the statement, and so does one before it. -/
theorem emptyLambda_filter_changes_sql :
    (¬ ∀ (q : Query) (p : Expr), p.sql = "" → (q.filter p).sql = q.sql) ∧
      ¬ ∀ (q : Query) (p r : Expr), p.sql = "" →
        ((q.filter p).filter r).sql = (q.filter r).sql := by
  constructor
  · intro h
    exact absurd (h firstEntry .emptyLambda rfl) (by cbv)
  · intro h
    exact absurd (h firstEntry .emptyLambda (.field "Open") rfl) (by cbv)

end Query

end SqlSelect
