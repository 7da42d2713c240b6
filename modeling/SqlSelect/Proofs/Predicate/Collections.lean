import SqlSelect.Proofs.Predicate.Blank
import SqlSelect.Proofs.Value.Scalars

/-!
# Collections without text

Strict rendering refuses a membership test by the text of its collection. A sequence has no
text if it holds no scalar at any depth and no two items stand side by side in it: between
two items there is a comma, even if neither has a text.

## Main definitions

* `Value.separators`: the commas between items, at any depth.

## Main statements

* `Value.toList_sql_of_scalars_eq_nil`: the literal of a value without scalars is the commas
  between its items;
* `Value.sql_eq_empty_iff_scalars`: which values have no text;
* `Expr.strictSql_isIn_sequence`: which sequences strict rendering refuses as collections.
-/

namespace SqlSelect

namespace Value

mutual

/-- The number of commas between items, at any depth of the sequences in a value. -/
def separators : Value → Nat
  | .array items => separatorsList items
  | _ => 0

def separatorsList : List Value → Nat
  | [] => 0
  | [v] => v.separators
  | v :: w :: rest => v.separators + 1 + separatorsList (w :: rest)

end

mutual

/-- Without scalars nothing is written but the commas between items. -/
theorem toList_sql_of_scalars_eq_nil (v : Value) (h : v.scalars = []) :
    v.sql.toList = List.replicate v.separators ',' := by
  match v, h with
  | .array items, h => exact toList_sqlList_of_scalarsList_eq_nil items h
  | .null, h | .bool _, h | .int _, h | .float _, h | .decimal _, h | .text _, h
  | .dateTime _, h => exact absurd h (List.cons_ne_nil _ _)

theorem toList_sqlList_of_scalarsList_eq_nil (vs : List Value) (h : scalarsList vs = []) :
    (sqlList vs).toList = List.replicate (separatorsList vs) ',' := by
  match vs, h with
  | [], _ => rfl
  | [v], h => exact toList_sql_of_scalars_eq_nil v (List.append_eq_nil_iff.1 h).1
  | v :: w :: rest, h =>
    obtain ⟨hv, hrest⟩ := List.append_eq_nil_iff.1 h
    have hcomma : ",".toList = List.replicate 1 ',' := rfl
    rw [sqlList, String.toList_append, String.toList_append, toList_sql_of_scalars_eq_nil v hv,
      toList_sqlList_of_scalarsList_eq_nil (w :: rest) hrest, hcomma,
      List.replicate_append_replicate, List.replicate_append_replicate, separatorsList]

end

theorem Blank.scalars_eq_nil {v : Value} (h : v.Blank) : v.scalars = [] := by
  induction h with
  | empty => rfl
  | single _ ih => rw [scalars, scalarsList, ih]; rfl

theorem Blank.separators_eq_zero {v : Value} (h : v.Blank) : v.separators = 0 := by
  induction h with
  | empty => rfl
  | single _ ih => exact ih

/-- A value has no text exactly if it holds no scalar and has no comma between items. -/
theorem sql_eq_empty_iff_scalars {v : Value} :
    v.sql = "" ↔ v.scalars = [] ∧ v.separators = 0 := by
  constructor
  · intro h
    have hblank := (sql_eq_empty_iff v).1 h
    exact ⟨hblank.scalars_eq_nil, hblank.separators_eq_zero⟩
  · rintro ⟨hscalars, hseparators⟩
    rw [← String.toList_inj, toList_sql_of_scalars_eq_nil v hscalars, hseparators]
    rfl

/-- Of sequences without sequences in them, only the empty one has no text. -/
theorem sqlList_eq_empty_iff_of_scalars {vs : List Value}
    (h : ∀ v ∈ vs, v.isSequence = false) : sqlList vs = "" ↔ vs = [] := by
  refine ⟨fun hsql => ?_, fun hvs => hvs ▸ rfl⟩
  cases (sql_eq_empty_iff (.array vs)).1 hsql with
  | empty => rfl
  | @single v hv =>
    have hscalar : v.isSequence = false := h v List.mem_cons_self
    exact absurd ((sql_eq_empty_iff v).2 hv) (sql_ne_empty_of_scalar hscalar)

end Value

namespace Expr

theorem gaps_isIn_sequence (item : Expr) (vs : List Value) :
    (item.isIn (.sequence vs)).gaps =
      (if Value.sqlList vs = "" then [.emptyCollection] else []) ++ item.gaps := by
  have hsql : (sequence vs).sql = Value.sqlList vs := sql_computed _
  rw [isIn, gaps, hsql, sequence, gaps, List.nil_append]

/-- With an item that has a strict text, a membership test in a sequence fails for an empty
    collection exactly if the sequence holds no scalar at any depth and none of the sequences
    in it, itself included, has two items. In all other cases it has a strict text. -/
theorem strictSql_isIn_sequence {item : Expr} {sql : String} (h : item.strictSql = .ok sql)
    (vs : List Value) :
    ((item.isIn (.sequence vs)).strictSql = .error .emptyCollection ↔
        Value.scalarsList vs = [] ∧ Value.separatorsList vs = 0) ∧
      (¬(Value.scalarsList vs = [] ∧ Value.separatorsList vs = 0) →
        (item.isIn (.sequence vs)).strictSql =
          .ok ("(" ++ sql ++ " IN (" ++ Value.sqlList vs ++ "))")) := by
  obtain ⟨hitem, rfl⟩ := strictSql_eq_ok_iff.1 h
  have hempty : Value.sqlList vs = "" ↔
      Value.scalarsList vs = [] ∧ Value.separatorsList vs = 0 :=
    Value.sql_eq_empty_iff_scalars (v := .array vs)
  rw [← hempty, strictSql_eq_error_iff, strictSql_eq_ok_iff, gaps_isIn_sequence, hitem]
  by_cases hvs : Value.sqlList vs = ""
  · simp [hvs]
  · simp [hvs, isIn, sequence, Value.sql]

/-- The sequence `[[], [[2]], []]` beside a column: all but one of its items are empty. -/
theorem strictSql_isIn_sequence_mostlyEmpty :
    (field "a").strictSql = .ok "a" ∧
      ((field "a").isIn (.sequence [.array [], .array [.array [.int 2]], .array []])).strictSql =
        .ok "(a IN (,2,))" ∧
      ((field "a").isIn (.sequence [.array [.array []]])).strictSql = .error .emptyCollection := by
  have hitem : (field "a").strictSql = .ok "a" := rfl
  have hmostly := (strictSql_isIn_sequence hitem [.array [], .array [.array [.int 2]], .array []]).2
  have hnested := (strictSql_isIn_sequence hitem [.array [.array []]]).1
  exact ⟨hitem, hmostly (fun hnone => by simp [Value.scalarsList, Value.scalars] at hnone),
    hnested.2 ⟨rfl, rfl⟩⟩

/-- Two empty sequences hold no element, but the comma between them is a text: strict
    rendering tests membership in nothing. -/
theorem emptyPair_collection_has_strictSql :
    ¬ ∀ (item : Expr) (sql : String) (vs : List Value), item.strictSql = .ok sql →
      ((item.isIn (.sequence vs)).strictSql = .error .emptyCollection ↔
          Value.scalarsList vs = []) ∧
        (Value.scalarsList vs ≠ [] → ∃ text, (item.isIn (.sequence vs)).strictSql = .ok text) := by
  intro h
  have hpair := (h (field "a") "a" [.array [], .array []] rfl).1.2 rfl
  have hsql : ((field "a").isIn (.sequence [.array [], .array []])).strictSql =
      .ok "(a IN (,))" := rfl
  rw [hsql] at hpair
  cases hpair

end Expr

end SqlSelect
