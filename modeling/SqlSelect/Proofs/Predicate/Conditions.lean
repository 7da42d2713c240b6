import SqlSelect.Predicate.Typed
import SqlSelect.Predicate.Untyped
import SqlSelect.Proofs.Predicate.Collections

/-!
# Conditions of typed columns

A condition that is put together from typed columns is the tree that the untyped functions
build in the same way. It holds only operators with tokens and columns with values, so the
one gap it can have is an empty list of values.

## Main definitions

* `Condition`: how a condition is put together;
* `Condition.predicate` and `Condition.untyped`: the condition, from typed columns and from
  names of columns;
* `Condition.lists`: the lists of values whose members are asked for.

## Main statements

* `Condition.gaps_untyped`: each empty list is one gap, and there are no others;
* `Condition.expr_eq_untyped_and_strictSql_iff`: a condition of typed columns is the untyped one,
  and only an empty list keeps it from having a strict text.
-/

namespace SqlSelect

/-- The comparisons of a column with a value. -/
inductive Comparison where
  | eq
  | ne
  | gt
  | gte
  | lt
  | lte

namespace Comparison

/-- The comparison of a typed column. -/
def typed {τ : ColumnType} (column : TypedColumn τ) (v : τ.Admitted) : Comparison → Predicate
  | .eq => column.eq v
  | .ne => column.ne v
  | .gt => column.gt v
  | .gte => column.gte v
  | .lt => column.lt v
  | .lte => column.lte v

/-- The comparison of the column of a name. -/
def untyped (name : String) (v : Value) : Comparison → Expr
  | .eq => Untyped.eq name v
  | .ne => Untyped.ne name v
  | .gt => Untyped.gt name v
  | .gte => Untyped.gte name v
  | .lt => Untyped.lt name v
  | .lte => Untyped.lte name v

theorem expr_typed {τ : ColumnType} (column : TypedColumn τ) (v : τ.Admitted)
    (c : Comparison) : (c.typed column v).expr = c.untyped column.name v := by
  cases c <;> rfl

/-- Every comparison has a token. -/
@[simp] theorem gaps_untyped (name : String) (v : Value) (c : Comparison) :
    (c.untyped name v).gaps = [] := by
  cases c <;> rfl

end Comparison

/-- How a condition is put together from typed columns. Two conditions are joined by a
    function or by an operator. -/
inductive Condition where
  | compare {τ : ColumnType} (c : Comparison) (column : TypedColumn τ) (v : τ.Admitted)
  | isIn {τ : ColumnType} (column : TypedColumn τ) (vs : List τ.Admitted)
  | isTrue (column : TypedColumn .bool)
  | and (p q : Condition)
  | or (p q : Condition)
  | andOp (p q : Condition)
  | orOp (p q : Condition)

namespace Condition

/-- The condition, from typed columns. -/
def predicate : Condition → Predicate
  | .compare c column v => c.typed column v
  | .isIn column vs => column.isIn vs
  | .isTrue column => column.isTrue
  | .and p q => p.predicate.and q.predicate
  | .or p q => p.predicate.or q.predicate
  | .andOp p q => p.predicate &&& q.predicate
  | .orOp p q => p.predicate ||| q.predicate

/-- The condition, from the names of the columns. -/
def untyped : Condition → Expr
  | .compare c column v => c.untyped column.name v
  | .isIn column vs => Untyped.isIn column.name (vs.map Subtype.val)
  | .isTrue column => Untyped.column column.name
  | .and p q | .andOp p q => Untyped.and p.untyped q.untyped
  | .or p q | .orOp p q => Untyped.or p.untyped q.untyped

/-- The lists of values whose members are asked for, from left to right. -/
def lists : Condition → List (List Value)
  | .compare .. | .isTrue _ => []
  | .isIn _ vs => [vs.map Subtype.val]
  | .and p q | .or p q | .andOp p q | .orOp p q => p.lists ++ q.lists

theorem expr_predicate (c : Condition) : c.predicate.expr = c.untyped := by
  induction c with
  | compare c column v => exact c.expr_typed column v
  | isIn column vs => rfl
  | isTrue column => rfl
  | and p q ihp ihq => exact congrArg₂ Expr.and ihp ihq
  | or p q ihp ihq => exact congrArg₂ Expr.or ihp ihq
  | andOp p q ihp ihq => exact congrArg₂ Expr.and ihp ihq
  | orOp p q ihp ihq => exact congrArg₂ Expr.or ihp ihq

/-! ### Gaps -/

theorem gaps_isIn {name : String} {vs : List Value} (h : ∀ v ∈ vs, v.isSequence = false) :
    (Untyped.isIn name vs).gaps = if vs = [] then [.emptyCollection] else [] := by
  have hitem : (Untyped.column name).gaps = [] := rfl
  simp only [Untyped.isIn, Expr.gaps_isIn_sequence, hitem, Value.sqlList_eq_empty_iff_of_scalars h,
    List.append_nil]

theorem gaps_and (left right : Expr) : (Untyped.and left right).gaps = left.gaps ++ right.gaps :=
  rfl

theorem gaps_or (left right : Expr) : (Untyped.or left right).gaps = left.gaps ++ right.gaps :=
  rfl

section

variable {c : Condition} (h : ∀ vs ∈ c.lists, ∀ v ∈ vs, v.isSequence = false)

include h

/-- Each empty list is a gap, in the order of the lists, and there are no other gaps. -/
theorem gaps_untyped :
    c.untyped.gaps = (c.lists.filter (· = [])).map fun _ => .emptyCollection := by
  induction c with
  | compare c column v => exact c.gaps_untyped column.name v
  | isIn column vs =>
    have hscalars := h _ List.mem_cons_self
    rw [untyped, lists, gaps_isIn hscalars]
    cases vs.map Subtype.val with
    | nil => rfl
    | cons v rest => rfl
  | isTrue column => rfl
  | and p q ihp ihq | andOp p q ihp ihq =>
    obtain ⟨hp, hq⟩ := List.forall_mem_append.1 h
    rw [untyped, gaps_and, ihp hp, ihq hq, lists, List.filter_append, List.map_append]
  | or p q ihp ihq | orOp p q ihp ihq =>
    obtain ⟨hp, hq⟩ := List.forall_mem_append.1 h
    rw [untyped, gaps_or, ihp hp, ihq hq, lists, List.filter_append, List.map_append]

theorem gaps_untyped_eq_nil_iff : c.untyped.gaps = [] ↔ [] ∉ c.lists := by
  rw [gaps_untyped h, List.map_eq_nil_iff, List.filter_eq_nil_iff]
  constructor
  · exact fun hall hmem => hall [] hmem (decide_eq_true rfl)
  · rintro hmem vs hvs hempty
    obtain rfl := of_decide_eq_true hempty
    exact hmem hvs

theorem head?_gaps_untyped_eq_some_iff {g : Gap} :
    c.untyped.gaps.head? = some g ↔ [] ∈ c.lists ∧ g = .emptyCollection := by
  cases hgaps : c.untyped.gaps with
  | nil =>
    have hnone : [] ∉ c.lists := (gaps_untyped_eq_nil_iff h).1 hgaps
    simp [hnone]
  | cons g' rest =>
    have hsome : [] ∈ c.lists := by
      by_contra hnone
      simp [(gaps_untyped_eq_nil_iff h).2 hnone] at hgaps
    -- All gaps are alike, the first one too.
    have hg' : g' ∈ (c.lists.filter (· = [])).map fun _ => Gap.emptyCollection := by
      rw [← gaps_untyped h, hgaps]
      exact List.mem_cons_self
    obtain ⟨-, -, rfl⟩ := List.mem_map.1 hg'
    simp [hsome, eq_comm]

end

/-- A condition of typed columns is the tree that the untyped functions build. If its lists
    hold no sequences, it has its lenient text as strict text unless one of the lists is
    empty, and then it fails for an empty collection and nothing else. The values of its
    comparisons can be any that the types of their columns admit. -/
theorem expr_eq_untyped_and_strictSql_iff (c : Condition)
    (h : ∀ vs ∈ c.lists, ∀ v ∈ vs, v.isSequence = false) :
    c.predicate.expr = c.untyped ∧
      (∀ sql, c.predicate.expr.strictSql = .ok sql ↔
        [] ∉ c.lists ∧ c.predicate.expr.sql = sql) ∧
      ∀ g, c.predicate.expr.strictSql = .error g ↔ [] ∈ c.lists ∧ g = .emptyCollection := by
  rw [expr_predicate]
  refine ⟨rfl, fun sql => ?_, fun g => ?_⟩
  · rw [Expr.strictSql_eq_ok_iff, gaps_untyped_eq_nil_iff h]
  · rw [Expr.strictSql_eq_error_iff, head?_gaps_untyped_eq_some_iff h]

/-- An adult of one of two names, or a customer on none of the lists. -/
def adultOrListed : Condition :=
  .orOp
    (.andOp (.compare .gte (⟨"Age"⟩ : TypedColumn .int64) ⟨.int 18, rfl⟩)
      (.isIn (⟨"Name"⟩ : TypedColumn .text) [⟨.text "ann", rfl⟩, ⟨.text "bo", rfl⟩]))
    (.and (.isTrue ⟨"Active"⟩) (.isIn (⟨"List"⟩ : TypedColumn .any) []))

theorem expr_eq_untyped_and_strictSql_adultOrListed :
    (∀ vs ∈ adultOrListed.lists, ∀ v ∈ vs, v.isSequence = false) ∧
      adultOrListed.predicate.expr =
        Untyped.or
          (Untyped.and (Untyped.gte "Age" (.int 18))
            (Untyped.isIn "Name" [.text "ann", .text "bo"]))
          (Untyped.and (Untyped.column "Active") (Untyped.isIn "List" [])) ∧
      adultOrListed.predicate.expr.strictSql = .error .emptyCollection := by
  have hlists : ∀ vs ∈ adultOrListed.lists, ∀ v ∈ vs, v.isSequence = false := by decide
  obtain ⟨hexpr, -, herror⟩ := expr_eq_untyped_and_strictSql_iff adultOrListed hlists
  have hempty : [] ∈ adultOrListed.lists := List.mem_append_right _ List.mem_cons_self
  exact ⟨hlists, hexpr, (herror .emptyCollection).2 ⟨hempty, rfl⟩⟩

end Condition

end SqlSelect
