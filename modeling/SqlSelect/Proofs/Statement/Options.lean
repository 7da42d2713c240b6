import SqlSelect.Proofs.Statement.Rendering

/-!
# Render options

Options decide whether a query is rendered and how its fragments are joined, and
nothing else. A query is refused for a missing condition or for the first gap of its
condition, and what refuses it does not depend on the spacing. A query that is not
refused has its lenient statement.

## Main definitions

* `RenderOptions.MissesFilter` and `RenderOptions.StopsAt`: when options refuse a query;
* `RenderOptions.refusal`: why they do;
* `Query.OptionsGate`: what options can do to a query.

## Main statements

* `Query.render_eq_refusal`: a query is refused, or it has its lenient statement;
* `Query.optionsGate`: options gate the statement of every query.
-/

namespace SqlSelect

namespace RenderOptions

/-- The query must have a filter, and no condition is stored. -/
def MissesFilter (o : RenderOptions) (q : Query) : Prop :=
  o.requireFilter = true ∧ q.clauses.predicate = none

/-- Gaps are errors, and the stored condition fails with this one. -/
def StopsAt (o : RenderOptions) (q : Query) (g : Gap) : Prop :=
  o.strict = true ∧ ∃ p, q.clauses.predicate = some p ∧ p.strictSql = .error g

instance (o : RenderOptions) (q : Query) : Decidable (o.MissesFilter q) :=
  inferInstanceAs (Decidable (o.requireFilter = true ∧ q.clauses.predicate = none))

/-- Why a query is not rendered under options. A missing condition comes before any
    gap. -/
def refusal (o : RenderOptions) (q : Query) : Option RenderError :=
  if o.MissesFilter q then some (.missingPredicate q.entity.table)
  else if o.strict then q.clauses.gaps.head?.map .gap
  else none

variable {o : RenderOptions} {q : Query}

theorem stopsAt_iff {g : Gap} :
    o.StopsAt q g ↔ o.strict = true ∧ q.clauses.gaps.head? = some g := by
  rw [StopsAt]
  cases hp : q.clauses.predicate with
  | none => simp [Clauses.gaps, hp]
  | some p => simp [Clauses.gaps, hp, Expr.strictSql_eq_error_iff]

/-- A query without a condition has no gaps. -/
theorem MissesFilter.not_stopsAt (h : o.MissesFilter q) (g : Gap) : ¬ o.StopsAt q g := by
  rintro ⟨-, p, hp, -⟩
  rw [h.2] at hp
  cases hp

theorem refusal_eq_missingPredicate_iff {table : String} :
    o.refusal q = some (.missingPredicate table) ↔
      o.MissesFilter q ∧ q.entity.table = table := by
  rw [refusal]
  by_cases hmissing : o.MissesFilter q
  · simp [hmissing]
  · cases o.strict with
    | false => simp [hmissing]
    | true => simp [hmissing]

theorem refusal_eq_gap_iff {g : Gap} : o.refusal q = some (.gap g) ↔ o.StopsAt q g := by
  rw [refusal]
  by_cases hmissing : o.MissesFilter q
  · simp [hmissing, hmissing.not_stopsAt g]
  · rw [if_neg hmissing, stopsAt_iff]
    cases o.strict with
    | false => simp
    | true => simp

theorem refusal_eq_none_iff :
    o.refusal q = none ↔ ¬ o.MissesFilter q ∧ ∀ g, ¬ o.StopsAt q g := by
  rw [Option.eq_none_iff_forall_ne_some]
  constructor
  · intro h
    exact ⟨fun hmissing => h _ (refusal_eq_missingPredicate_iff.2 ⟨hmissing, rfl⟩),
      fun g hg => h _ (refusal_eq_gap_iff.2 hg)⟩
  · rintro ⟨hmissing, hgap⟩ (g | table) h
    · exact hgap g (refusal_eq_gap_iff.1 h)
    · exact hmissing (refusal_eq_missingPredicate_iff.1 h).1

/-- A refusal stays when further flags are set. -/
theorem refusal_union {x : RenderError} (o' : RenderOptions) (h : o.refusal q = some x) :
    (o.union o').refusal q = some x := by
  cases x with
  | missingPredicate table =>
    rw [refusal_eq_missingPredicate_iff] at h ⊢
    obtain ⟨⟨hrequire, hp⟩, htable⟩ := h
    exact ⟨⟨by simp [union, hrequire], hp⟩, htable⟩
  | gap g =>
    rw [refusal_eq_gap_iff] at h ⊢
    obtain ⟨hstrict, hg⟩ := h
    exact ⟨by simp [union, hstrict], hg⟩

end RenderOptions

namespace Query

open RenderOptions

variable (q : Query)

/-- A query is refused, or it has its lenient statement. -/
theorem render_eq_refusal (o : RenderOptions) :
    q.render o = match o.refusal q with
      | some x => .error x
      | none => .ok (q.renderLenient o.legacySpacing) := by
  rw [render, refusal]
  by_cases hmissing : o.MissesFilter q
  · have hguard : (o.requireFilter && q.clauses.predicate.isNone) = true := by
      simp [hmissing.1, hmissing.2]
    rw [if_pos hguard, if_pos hmissing]
  · have hguard : ¬ (o.requireFilter && q.clauses.predicate.isNone) = true := by
      simpa [MissesFilter] using hmissing
    rw [if_neg hguard, if_neg hmissing, renderStrict_eq, strictCondition_eq, renderLenient_eq]
    cases o.strict with
    | false => rfl
    | true =>
      cases q.clauses.gaps with
      | nil => rfl
      | cons g rest => rfl

variable {q}

theorem render_eq_error_iff {o : RenderOptions} {x : RenderError} :
    q.render o = .error x ↔ o.refusal q = some x := by
  rw [render_eq_refusal]
  cases o.refusal q with
  | none => simp
  | some y => simp

theorem render_eq_ok_iff {o : RenderOptions} {sql : String} :
    q.render o = .ok sql ↔ o.refusal q = none ∧ q.renderLenient o.legacySpacing = sql := by
  rw [render_eq_refusal]
  cases o.refusal q with
  | none => simp
  | some y => simp

theorem render_lenient (legacySpacing : Bool) :
    q.render { legacySpacing } = .ok (q.renderLenient legacySpacing) := rfl

/-- Options gate the statement of a query: they can refuse it, and they choose its
    spacing. -/
structure OptionsGate (q : Query) : Prop where
  /-- A query that misses its filter is refused, whatever else is asked for. -/
  missing : ∀ o table, q.render o = .error (.missingPredicate table) ↔
    o.MissesFilter q ∧ q.entity.table = table
  /-- Any other refusal is the one of the strict condition. -/
  gap : ∀ o g, q.render o = .error (.gap g) ↔ o.StopsAt q g
  /-- What is not refused is the statement of the same spacing without any gate. -/
  ok : ∀ o sql, q.render o = .ok sql ↔
    (¬ o.MissesFilter q ∧ ∀ g, ¬ o.StopsAt q g) ∧
      q.render { legacySpacing := o.legacySpacing } = .ok sql
  /-- Without gates there is a statement. -/
  lenient : ∀ legacySpacing, ∃ sql, q.render { legacySpacing } = .ok sql
  /-- Gates that are put up turn a statement into an error or leave it as it is. -/
  stricter : ∀ o strict requireFilter sql, q.render o = .ok sql →
    q.render (o.union { strict, requireFilter }) = .ok sql ∨
      ∃ x, q.render (o.union { strict, requireFilter }) = .error x
  /-- An error is kept by every flag that is added. -/
  kept : ∀ o o' x, q.render o = .error x → q.render (o.union o') = .error x
  /-- The spacing has no part in errors. -/
  spacing : ∀ o legacySpacing x,
    q.render { o with legacySpacing } = .error x ↔ q.render o = .error x
  /-- The plain statement is the one under default options. -/
  default : q.render {} = .ok q.sql
  /-- The strict statement is the plain one, where there is one. -/
  strict : ∀ sql, q.strictSql = .ok sql → q.sql = sql

/-- Options gate the statement of every query, and never change it. -/
theorem optionsGate (q : Query) : q.OptionsGate where
  missing o table := render_eq_error_iff.trans refusal_eq_missingPredicate_iff
  gap o g := render_eq_error_iff.trans refusal_eq_gap_iff
  ok o sql := by
    rw [render_eq_ok_iff, refusal_eq_none_iff, render_lenient, Except.ok.injEq]
  lenient legacySpacing := ⟨_, render_lenient legacySpacing⟩
  stricter o strict requireFilter sql h := by
    have hspacing : (o.union { strict, requireFilter }).legacySpacing = o.legacySpacing :=
      Bool.or_false _
    have hsql := (render_eq_ok_iff.1 h).2
    rw [render_eq_refusal, hspacing, hsql]
    cases (o.union { strict, requireFilter }).refusal q with
    | none => exact .inl rfl
    | some x => exact .inr ⟨x, rfl⟩
  kept o o' x h := render_eq_error_iff.2 (refusal_union o' (render_eq_error_iff.1 h))
  spacing o legacySpacing x := by
    rw [render_eq_error_iff, render_eq_error_iff]
    rfl
  default := rfl
  strict sql h := (render_eq_ok_iff.1 h).2

end Query

end SqlSelect
