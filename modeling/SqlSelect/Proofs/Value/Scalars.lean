import SqlSelect.Proofs.Number.DecimalText
import SqlSelect.Proofs.Predicate.Skeleton
import SqlSelect.Query

/-!
# Scalars of queries

The values that a query holds below its sequences, and what equality says of them. A
query equals itself unless a NaN is in it, and it stays equal where its decimals lose
the minus sign of a zero.

## Main definitions

* `Value.scalars`, `Expr.scalars` and `Query.scalars`;
* `FiniteFloats` and `UnsignedZeros`: conditions on scalars;
* `Query.asRead`: the query with its decimals as they are read from their texts.

## Main statements

* `Query.asRead_eq_self`: without signed zeros nothing is lost;
* `Query.equal_asRead`: what is lost is nothing to equality.
-/

namespace SqlSelect

/-! ### What a query holds -/

namespace Value

mutual

/-- The value itself, or what is in its items, at any depth of their sequences. -/
def scalars : Value → List Value
  | .array items => scalarsList items
  | v => [v]

def scalarsList : List Value → List Value
  | [] => []
  | v :: rest => v.scalars ++ scalarsList rest

end

end Value

def Expr.scalars (e : Expr) : List Value := e.values.flatMap Value.scalars

def Clauses.scalars (c : Clauses) : List Value := c.predicate.toList.flatMap Expr.scalars

def Query.scalars (q : Query) : List Value := q.clauses.scalars

/-- No double is a NaN or an infinity. -/
def FiniteFloats (vs : List Value) : Prop := ∀ x, .float x ∈ vs → x.isFinite = true

/-- No decimal that is zero has a minus sign. -/
def UnsignedZeros (vs : List Value) : Prop :=
  ∀ d, .decimal d ∈ vs → d.coefficient = 0 → d.negative = false

@[simp] theorem finiteFloats_append {l r : List Value} :
    FiniteFloats (l ++ r) ↔ FiniteFloats l ∧ FiniteFloats r := by
  simp only [FiniteFloats, List.mem_append, or_imp, forall_and]

@[simp] theorem unsignedZeros_append {l r : List Value} :
    UnsignedZeros (l ++ r) ↔ UnsignedZeros l ∧ UnsignedZeros r := by
  simp only [UnsignedZeros, List.mem_append, or_imp, forall_and]

theorem finiteFloats_scalarsList {vs : List Value} :
    FiniteFloats (Value.scalarsList vs) ↔ ∀ v ∈ vs, FiniteFloats v.scalars := by
  induction vs with
  | nil => simp [Value.scalarsList, FiniteFloats]
  | cons v vs ih => rw [Value.scalarsList, finiteFloats_append, ih, List.forall_mem_cons]

@[simp] theorem Expr.scalars_literal (v : Value) : (Expr.literal v).scalars = v.scalars := by
  simp [Expr.scalars, Expr.values]

@[simp] theorem Expr.scalars_computed (v : Value) : (Expr.computed v).scalars = v.scalars := by
  simp [Expr.scalars, Expr.values]

@[simp] theorem Expr.scalars_unary (e : Expr) : (Expr.unary e).scalars = e.scalars := rfl

@[simp] theorem Expr.scalars_lambda (e : Expr) : (Expr.lambda e).scalars = e.scalars := rfl

@[simp] theorem Expr.scalars_binary (op : Operator) (left right : Expr) :
    (Expr.binary op left right).scalars = left.scalars ++ right.scalars :=
  List.flatMap_append

@[simp] theorem Expr.scalars_membership (item collection : Expr) :
    (Expr.membership item collection).scalars = item.scalars ++ collection.scalars :=
  List.flatMap_append

/-! ### Queries as they are read -/

namespace Value

mutual

/-- The value with its decimals as they are read from their texts. -/
def asRead : Value → Value
  | .decimal d => .decimal d.asRead
  | .array items => .array (asReadList items)
  | v => v

def asReadList : List Value → List Value
  | [] => []
  | v :: rest => v.asRead :: asReadList rest

end

theorem asReadList_eq_map (vs : List Value) : asReadList vs = vs.map asRead := by
  induction vs with
  | nil => rfl
  | cons v vs ih => rw [asReadList, ih, List.map_cons]

mutual

/-- What was read once is read as the same. -/
theorem asRead_asRead (v : Value) : v.asRead.asRead = v.asRead := by
  match v with
  | .decimal d => exact congrArg decimal d.asRead_asRead
  | .array items => exact congrArg array (asReadList_asReadList items)
  | .null | .bool _ | .int _ | .float _ | .text _ | .dateTime _ => rfl

theorem asReadList_asReadList (vs : List Value) :
    asReadList (asReadList vs) = asReadList vs := by
  match vs with
  | [] => rfl
  | v :: rest => rw [asReadList, asReadList, asRead_asRead v, asReadList_asReadList rest]

end

mutual

theorem asRead_eq_self (v : Value) (h : UnsignedZeros v.scalars) : v.asRead = v := by
  match v, h with
  | .decimal d, h =>
    exact congrArg decimal (Decimal.asRead_of_zero_unsigned (h d (List.mem_singleton_self _)))
  | .array items, h => exact congrArg array (asReadList_eq_self items h)
  | .null, _ | .bool _, _ | .int _, _ | .float _, _ | .text _, _ | .dateTime _, _ => rfl

theorem asReadList_eq_self (vs : List Value) (h : UnsignedZeros (scalarsList vs)) :
    asReadList vs = vs := by
  match vs, h with
  | [], _ => rfl
  | v :: rest, h =>
    have ⟨hv, hrest⟩ := unsignedZeros_append.1 h
    rw [asReadList, asRead_eq_self v hv, asReadList_eq_self rest hrest]

end

end Value

namespace Expr

/-- The tree with its decimals as they are read from their texts. -/
def asRead : Expr → Expr
  | .literal v => .literal v.asRead
  | .computed v => .computed v.asRead
  | .unary e => .unary e.asRead
  | .binary op left right => .binary op left.asRead right.asRead
  | .membership item collection => .membership item.asRead collection.asRead
  | .lambda body => .lambda body.asRead
  | e => e

theorem asRead_asRead (e : Expr) : e.asRead.asRead = e.asRead := by
  induction e with
  | literal v | computed v => simp [asRead, v.asRead_asRead]
  | unary e ih | lambda e ih => simp [asRead, ih]
  | binary op l r ihl ihr | membership l r ihl ihr => simp [asRead, ihl, ihr]
  | field | emptyLambda | foreign => rfl

theorem asRead_eq_self (e : Expr) (h : UnsignedZeros e.scalars) : e.asRead = e := by
  induction e with
  | literal v =>
    rw [scalars_literal] at h
    rw [asRead, Value.asRead_eq_self v h]
  | computed v =>
    rw [scalars_computed] at h
    rw [asRead, Value.asRead_eq_self v h]
  | unary e ih => rw [asRead, ih h]
  | lambda body ih => rw [asRead, ih h]
  | binary op left right ihl ihr =>
    rw [scalars_binary, unsignedZeros_append] at h
    rw [asRead, ihl h.1, ihr h.2]
  | membership item collection ihi ihc =>
    rw [scalars_membership, unsignedZeros_append] at h
    rw [asRead, ihi h.1, ihc h.2]
  | field | emptyLambda | foreign => rfl

end Expr

/-- The clauses with their decimals as they are read from their texts. -/
def Clauses.asRead (c : Clauses) : Clauses :=
  { c with predicate := c.predicate.map Expr.asRead }

def Query.asRead (q : Query) : Query := { q with clauses := q.clauses.asRead }

theorem Query.asRead_asRead (q : Query) : q.asRead.asRead = q.asRead := by
  obtain ⟨entity, ⟨predicate⟩⟩ := q
  cases predicate with
  | none => rfl
  | some p => simp [asRead, Clauses.asRead, p.asRead_asRead]

/-- Without signed zeros nothing is lost. -/
theorem Query.asRead_eq_self {q : Query} (h : UnsignedZeros q.scalars) : q.asRead = q := by
  obtain ⟨entity, ⟨predicate⟩⟩ := q
  cases predicate with
  | none => rfl
  | some p =>
    have hp : UnsignedZeros p.scalars := by simpa [scalars, Clauses.scalars] using h
    rw [asRead, Clauses.asRead, Option.map_some, Expr.asRead_eq_self p hp]

/-! ### Equality -/

theorem Double.equal_self {x : Double} (h : x.isFinite = true) : x.equal x = true := by
  cases x with
  | finite => simp [equal]
  | nan => cases h
  | infinite => cases h

/-- Numeric equality does not see the sign of a zero. -/
theorem Decimal.equal_asRead (d : Decimal) : d.equal d.asRead = true := by
  by_cases hzero : d.coefficient = 0
  · simp [equal, asRead, hzero]
  · simp [equal, asRead, hzero]

namespace Value

mutual

theorem equal_asRead (v : Value) (h : FiniteFloats v.scalars) : v.equal v.asRead = true := by
  match v, h with
  | .float x, h => exact Double.equal_self (h x (List.mem_singleton_self _))
  | .decimal d, _ => exact d.equal_asRead
  | .array items, h => exact equalList_asReadList items h
  | .null, _ => rfl
  | .bool b, _ => exact beq_self_eq_true b
  | .int n, _ => exact beq_self_eq_true n
  | .text s, _ => exact beq_self_eq_true s
  | .dateTime t, _ => exact beq_self_eq_true t

theorem equalList_asReadList (vs : List Value) (h : FiniteFloats (scalarsList vs)) :
    equalList vs (asReadList vs) = true := by
  match vs, h with
  | [], _ => rfl
  | v :: rest, h =>
    have ⟨hv, hrest⟩ := finiteFloats_append.1 h
    rw [asReadList, equalList, equal_asRead v hv, equalList_asReadList rest hrest]
    rfl

end

end Value

theorem Expr.equal_asRead (e : Expr) (h : FiniteFloats e.scalars) :
    e.equal e.asRead = true := by
  induction e with
  | literal v => exact v.equal_asRead (scalars_literal v ▸ h)
  | computed v => exact v.equal_asRead (scalars_computed v ▸ h)
  | unary e ih => exact ih h
  | lambda body ih => exact ih h
  | binary op left right ihl ihr =>
    rw [scalars_binary, finiteFloats_append] at h
    simp [equal, asRead, ihl h.1, ihr h.2]
  | membership item collection ihi ihc =>
    rw [scalars_membership, finiteFloats_append] at h
    simp [equal, asRead, ihi h.1, ihc h.2]
  | field name => exact beq_self_eq_true name
  | emptyLambda => rfl
  | foreign kind => exact beq_self_eq_true kind

/-- What a query loses in the texts of its decimals is nothing to equality. -/
theorem Query.equal_asRead {q : Query} (h : FiniteFloats q.scalars) :
    q.equal q.asRead = true := by
  obtain ⟨entity, ⟨predicate⟩⟩ := q
  cases predicate with
  | none => simp [equal, asRead, Clauses.equal, Clauses.asRead]
  | some p =>
    have hp : p.equal p.asRead = true :=
      Expr.equal_asRead p (by simpa [scalars, Clauses.scalars] using h)
    simp [equal, asRead, Clauses.equal, Clauses.asRead, hp]

end SqlSelect
