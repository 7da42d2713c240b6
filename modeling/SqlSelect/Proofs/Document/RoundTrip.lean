import SqlSelect.Document.Storage
import SqlSelect.Proofs.Document.Decoding

/-!
# Reading stored queries

A query that is written as JSON is read back unless a double in it is a NaN or an
infinity or its document nests deeper than the reader goes. Every filter after the
first makes the document two levels deeper, so a query with many filters can be written
but not read.

## Main statements

* `Query.ofJson?_toJson`: what a written query is read as, and when it is;
* `Query.ofJson?_toJson_filters`: 64 filters are too many.
-/

namespace SqlSelect.Query

/-- A written query is read with its decimals as they are in their texts, and only if it
    has finite doubles and nests no deeper than the reader goes. -/
theorem ofJson?_toJson {q q' : Query} :
    ofJson? q.toJson = some q' ↔
      (FiniteFloats q.scalars ∧ q.encode.depth ≤ Json.nestingLimit) ∧ q.asRead = q' := by
  rw [ofJson?, Json.decode?, toJson, Json.read?_print .pretty, Option.bind_some]
  exact readAs_encode Json.conventions q _ _

/-- A query of finite doubles and unsigned zeros that nests at most 127 levels is read
    back as an equal one, which is rendered in the same way. -/
theorem exists_ofJson?_toJson {q : Query} (hfloats : FiniteFloats q.scalars)
    (hzeros : UnsignedZeros q.scalars) (hdepth : q.encode.depth ≤ 127) :
    ∃ q', ofJson? q.toJson = some q' ∧ q'.equal q = true ∧
      ∀ options, q'.render options = q.render options := by
  have hread : q.asRead = q := asRead_eq_self hzeros
  have hequal : q.equal q = true := by
    have h := equal_asRead hfloats
    rwa [hread] at h
  exact ⟨q, ofJson?_toJson.2 ⟨⟨hfloats, hdepth⟩, hread⟩, hequal, fun _ => rfl⟩

/-- A query with every kind of value and of node, in which texts need escapes, a decimal
    has trailing places and a date-time has a leap second. -/
def assorted : Query where
  entity := {
    table := "Orders"
    columns := [⟨"Id", 4294967295, true⟩, ⟨"Status", 0, false⟩] }
  clauses := {
    predicate := some (.and (.lambda (.unary (.binary .add (.field "A\"B") (.literal .null))))
      (.or (.isIn (.foreign "Call") (.sequence [.bool true, .int (-9223372036854775808),
          .array [.text "line\nback\\slash\u0001", .array []]]))
        (.and .emptyLambda (.eq (.literal (.float (.finite true 5629499534213120 1023 (by decide))))
          (.ne (.computed (.decimal ⟨true, 10250, 3, by decide, by decide⟩))
            (.literal (.dateTime ⟨-44, 3, 15, 23, 59, 60, 5000000, by decide, by decide⟩)))))))
    groupBy := ["Id", "Id"]
    sum := ["\u0000"]
    limit := 18446744073709551615 }

theorem exists_ofJson?_toJson_assorted :
    (FiniteFloats assorted.scalars ∧ UnsignedZeros assorted.scalars ∧
      assorted.encode.depth ≤ 127) ∧
    ∃ q', ofJson? assorted.toJson = some q' ∧ q'.equal assorted = true ∧
      ∀ options, q'.render options = assorted.render options := by
  have hscalars : assorted.scalars = [.null, .bool true, .int (-9223372036854775808),
      .text "line\nback\\slash\u0001", .float (.finite true 5629499534213120 1023 (by decide)),
      .decimal ⟨true, 10250, 3, by decide, by decide⟩,
      .dateTime ⟨-44, 3, 15, 23, 59, 60, 5000000, by decide, by decide⟩] := rfl
  have hfloats : FiniteFloats assorted.scalars := by
    simp [hscalars, FiniteFloats, Double.isFinite]
  have hzeros : UnsignedZeros assorted.scalars := by simp [hscalars, UnsignedZeros]
  have hdepth : assorted.encode.depth ≤ 127 := by decide
  exact ⟨⟨hfloats, hzeros, hdepth⟩, exists_ofJson?_toJson hfloats hzeros hdepth⟩

/-- A written query is readable exactly if its doubles are finite and it nests at most
    127 levels. -/
theorem isSome_ofJson?_toJson_iff (q : Query) :
    (ofJson? q.toJson).isSome = true ↔ FiniteFloats q.scalars ∧ q.encode.depth ≤ 127 := by
  rw [Option.isSome_iff_exists]
  constructor
  · rintro ⟨q', h⟩
    exact (ofJson?_toJson.1 h).1
  · intro h
    exact ⟨q.asRead, ofJson?_toJson.2 ⟨h, rfl⟩⟩

theorem infinite_literal_not_readable :
    ¬ ∀ q : Query, (ofJson? q.toJson).isSome = true := by
  intro h
  let q : Query := {
    entity := { table := "T" }
    clauses := { predicate := some (.literal (.float (.infinite false))) } }
  obtain ⟨q', hread⟩ := Option.isSome_iff_exists.1 (h q)
  have hfinite := (ofJson?_toJson.1 hread).1.1 (.infinite false) (List.mem_singleton_self _)
  cases hfinite

/-! ### Many filters -/

theorem depth_encode_and (p r : Expr) :
    (p.and r).encode.depth = 2 + max p.encode.depth r.encode.depth := by
  simp [Expr.and, Expr.encode, Operator.encode, Tree.depth, Tree.depthMembers]
  omega

theorem one_le_depth_encode (p : Expr) : 1 ≤ p.encode.depth := by
  obtain ⟨name, payload, h⟩ := p.exists_encode_eq_variant
  rw [h, Tree.depth_variant]
  exact Nat.le_add_right _ _

theorem depth_encode_predicate_lt {q : Query} {p : Expr} (h : q.clauses.predicate = some p) :
    p.encode.depth + 2 ≤ q.encode.depth := by
  have hclauses : 1 + p.encode.depth ≤ q.clauses.encode.depth := by
    rw [Clauses.depth_encode, h, encodePredicate]
    omega
  rw [depth_encode]
  omega

/-- A filter of a query that has a condition makes the condition two levels deeper. -/
theorem exists_predicate_filter {q : Query} {p : Expr} (h : q.clauses.predicate = some p)
    (r : Expr) : ∃ p', (q.filter r).clauses.predicate = some p' ∧
      p.encode.depth + 2 ≤ p'.encode.depth := by
  refine ⟨p.and r, by simp [filter, Clauses.addPredicate, h], ?_⟩
  rw [depth_encode_and]
  omega

theorem exists_predicate_filters {q : Query} {p : Expr} (h : q.clauses.predicate = some p)
    (ps : List Expr) : ∃ p', (ps.foldl filter q).clauses.predicate = some p' ∧
      p.encode.depth + 2 * ps.length ≤ p'.encode.depth := by
  induction ps generalizing q p with
  | nil => exact ⟨p, h, by simp⟩
  | cons r ps ih =>
    obtain ⟨p₁, h₁, hdepth₁⟩ := exists_predicate_filter h r
    obtain ⟨p₂, h₂, hdepth₂⟩ := ih h₁
    refine ⟨p₂, h₂, ?_⟩
    rw [List.length_cons]
    omega

/-- However small they are, 64 filters make a query that is written but not read. -/
theorem ofJson?_toJson_filters (q : Query) {ps : List Expr} (h : 64 ≤ ps.length) :
    ofJson? (ps.foldl filter q).toJson = none := by
  obtain ⟨r, ps, rfl⟩ := List.exists_cons_of_length_pos (Nat.lt_of_lt_of_le (by decide) h)
  have hfirst : ∃ p, (q.filter r).clauses.predicate = some p := ⟨_, rfl⟩
  obtain ⟨p, hp⟩ := hfirst
  obtain ⟨p', hp', hdepth⟩ := exists_predicate_filters hp ps
  have hone := one_le_depth_encode p
  have hquery := depth_encode_predicate_lt hp'
  rw [Option.eq_none_iff_forall_ne_some]
  intro q' hread
  have hlimit : (ps.foldl filter (q.filter r)).encode.depth ≤ 127 := (ofJson?_toJson.1 hread).1.2
  rw [List.length_cons] at h
  omega

end SqlSelect.Query
