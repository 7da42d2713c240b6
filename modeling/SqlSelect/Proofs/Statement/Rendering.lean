import SqlSelect.Proofs.Predicate.Gaps
import SqlSelect.Query

/-!
# Rendering statements

What a statement is made of, once writing its condition is understood: the gaps of
the condition are met first, and the text does not depend on what is done at them.

## Main definitions

* `Clauses.predicateText` and `Clauses.conditionText`: the text of the condition,
  bare and as WHERE fragment;
* `Clauses.gaps`: the gaps of the condition;
* `Query.conditionUnder`: the WHERE fragment under given options.

## Main statements

* `statement_eq`: a statement is the gaps of its condition, followed by one text;
* `Query.render_eq_conditionUnder`: a query with a condition is rendered as its
  fragments around the WHERE fragment of the same options.
-/

namespace SqlSelect

/-- The text of the condition; nothing if there is no condition. -/
def Clauses.predicateText (c : Clauses) : String := (c.predicate.map Expr.sql).getD ""

theorem Clauses.predicateText_of_eq_none {c : Clauses} (h : c.predicate = none) :
    c.predicateText = "" := by
  rw [predicateText, h]
  rfl

theorem Clauses.predicateText_of_eq_some {c : Clauses} {p : Expr} (h : c.predicate = some p) :
    c.predicateText = p.sql := by
  rw [predicateText, h]
  rfl

/-- The gaps of the condition. -/
def Clauses.gaps (c : Clauses) : List Gap := (c.predicate.map Expr.gaps).getD []

/-- The WHERE fragment: the text of the condition after its keyword, or nothing. -/
def Clauses.conditionText (c : Clauses) : String :=
  if c.predicateText = "" then "" else "WHERE " ++ c.predicateText

theorem Clauses.conditionText_eq_empty_iff_predicateText {c : Clauses} :
    c.conditionText = "" ↔ c.predicateText = "" := by
  rw [conditionText]
  split
  · next h => simp [h]
  · next h => simp [h]

section

variable {m : Type → Type} [Monad m] [LawfulMonad m]

theorem whereFragment_eq (onGap : Gap → m Unit) (c : Clauses) :
    whereFragment onGap c = (do c.gaps.forM onGap; pure c.conditionText) := by
  cases h : c.predicate with
  | none => simp [whereFragment, Clauses.gaps, Clauses.conditionText, Clauses.predicateText, h]
  | some p =>
    simp [whereFragment, Clauses.gaps, Clauses.conditionText, Clauses.predicateText, h,
      Expr.write_eq]

theorem statement_eq (onGap : Gap → m Unit) (legacySpacing : Bool) (e : Entity) (c : Clauses) :
    statement onGap legacySpacing e c = (do
      c.gaps.forM onGap
      pure (joinFragments legacySpacing (fragments e c c.conditionText))) := by
  simp [statement, whereFragment_eq]

end

namespace Query

variable (q : Query)

theorem condition_eq : q.condition = q.clauses.conditionText := by
  rw [condition, whereFragment_eq]
  simp

theorem renderLenient_eq (legacySpacing : Bool) :
    q.renderLenient legacySpacing =
      joinFragments legacySpacing (fragments q.entity q.clauses q.clauses.conditionText) := by
  rw [renderLenient, statement_eq]
  simp

/-- The WHERE fragment of a query whose condition has no gaps. -/
def strictCondition : Except Gap String := whereFragment throw q.clauses

theorem strictCondition_eq :
    q.strictCondition =
      match q.clauses.gaps with
      | [] => .ok q.clauses.conditionText
      | g :: _ => .error g := by
  rw [strictCondition, whereFragment_eq, Expr.forM_throw]
  cases q.clauses.gaps with
  | nil => rfl
  | cons g rest => rfl

/-- The strict statement is the fragments around the strict WHERE fragment. -/
theorem renderStrict_eq (legacySpacing : Bool) :
    q.renderStrict legacySpacing = q.strictCondition.map fun condition =>
      joinFragments legacySpacing (fragments q.entity q.clauses condition) := by
  rw [renderStrict, statement, strictCondition]
  rfl

/-- The WHERE fragment of the statement that is rendered under options. -/
def conditionUnder (o : RenderOptions) : Except RenderError String :=
  if o.strict then q.strictCondition.mapError .gap else .ok q.condition

/-- Unless a condition is missing, the statement is its fragments around the WHERE
    fragment of the same options. -/
theorem render_eq_conditionUnder (o : RenderOptions)
    (h : (o.requireFilter && q.clauses.predicate.isNone) = false) :
    q.render o = (q.conditionUnder o).map fun condition =>
      joinFragments o.legacySpacing (fragments q.entity q.clauses condition) := by
  rw [render, h, conditionUnder]
  cases o.strict with
  | false =>
    rw [renderLenient_eq, condition_eq]
    rfl
  | true =>
    rw [renderStrict_eq]
    cases q.strictCondition with
    | error g => rfl
    | ok condition => rfl

end Query

end SqlSelect
