import Mathlib.Logic.Relation
import SqlSelect.Proofs.Predicate.Skeleton
import SqlSelect.Proofs.Statement.Conjunction

/-!
# Variants of a condition

Trees that differ in wrappers around their parts, in whether a value was written down or
worked out beforehand, and in which of two synonymous connectives they name. Writing sees
none of this, wherever in the tree it is and whatever is done at the gaps. So variants of
a condition have one text and fail with one gap, and a query is rendered alike under them.

## Main definitions

* `Expr.Rewrites`: one change of this kind, at any place of a tree;
* `Expr.Variant`: any number of such changes, in either direction;
* `Expr.plain`: the variant without wrappers, computed values and synonyms.

## Main statements

* `Expr.variant_iff_plain_eq`: trees are variants exactly if they have one plain form;
* `Expr.Variant.write_eq`: variants are written alike, whatever is done at the gaps;
* `Expr.written_alike_of_variant`: so are the statements under them.
-/

namespace SqlSelect

/-- Only connectives have synonyms, and they have tokens. -/
theorem Operator.canonical_of_token?_eq_none {op : Operator} (h : op.token? = none) :
    op.canonical = op := by
  cases op with
  | and | or => cases h
  | _ => rfl

namespace Expr

/-! ### Rewrites -/

/-- One change to a tree: a part of it is wrapped, a literal becomes a computed value, or a
    connective becomes its synonym. -/
inductive Rewrites : Expr → Expr → Prop
  | wrapUnary (e : Expr) : Rewrites e (.unary e)
  | wrapLambda (e : Expr) : Rewrites e (.lambda e)
  | compute (v : Value) : Rewrites (.literal v) (.computed v)
  | conjunction (l r : Expr) : Rewrites (.binary .and l r) (.binary .andAlso l r)
  | disjunction (l r : Expr) : Rewrites (.binary .or l r) (.binary .orElse l r)
  | unary {e e' : Expr} (h : Rewrites e e') : Rewrites (.unary e) (.unary e')
  | lambda {e e' : Expr} (h : Rewrites e e') : Rewrites (.lambda e) (.lambda e')
  | left {op : Operator} {l l' r : Expr} (h : Rewrites l l') :
      Rewrites (.binary op l r) (.binary op l' r)
  | right {op : Operator} {l r r' : Expr} (h : Rewrites r r') :
      Rewrites (.binary op l r) (.binary op l r')
  | item {i i' c : Expr} (h : Rewrites i i') : Rewrites (.membership i c) (.membership i' c)
  | collection {i c c' : Expr} (h : Rewrites c c') :
      Rewrites (.membership i c) (.membership i c')

/-- A tree becomes another one by any number of changes, made or taken back. -/
def Variant : Expr → Expr → Prop := Relation.EqvGen Rewrites

/-- The tree without its wrappers, with literals for computed values and one name for each
    connective. -/
def plain : Expr → Expr
  | .computed v => .literal v
  | .unary e | .lambda e => e.plain
  | .binary op left right => .binary op.canonical left.plain right.plain
  | .membership item collection => .membership item.plain collection.plain
  | e => e

variable {e e' e'' : Expr}

namespace Variant

theorem refl (e : Expr) : Variant e e := Relation.EqvGen.refl e

theorem symm (h : Variant e e') : Variant e' e := Relation.EqvGen.symm _ _ h

theorem trans (h : Variant e e') (h' : Variant e' e'') : Variant e e'' :=
  Relation.EqvGen.trans _ _ _ h h'

theorem of_rewrites (h : Rewrites e e') : Variant e e' := Relation.EqvGen.rel _ _ h

/-- Changes to a part are changes to the whole. -/
theorem under {whole : Expr → Expr} (hwhole : ∀ {a b}, Rewrites a b → Rewrites (whole a) (whole b))
    (h : Variant e e') : Variant (whole e) (whole e') := by
  induction h with
  | rel a b hab => exact of_rewrites (hwhole hab)
  | refl a => exact refl (whole a)
  | symm a b _ ih => exact ih.symm
  | trans a b c _ _ hab hbc => exact hab.trans hbc

end Variant

/-! ### Plain forms -/

/-- A change leaves the plain form as it is. -/
theorem Rewrites.plain_eq (h : Rewrites e e') : e'.plain = e.plain := by
  induction h with
  | wrapUnary | wrapLambda | compute | conjunction | disjunction => rfl
  | unary _ ih => exact ih
  | lambda _ ih => exact ih
  | left _ ih => rw [plain, plain, ih]
  | right _ ih => rw [plain, plain, ih]
  | item _ ih => rw [plain, plain, ih]
  | collection _ ih => rw [plain, plain, ih]

theorem Variant.plain_eq (h : Variant e e') : e'.plain = e.plain := by
  induction h with
  | rel a b hab => exact hab.plain_eq
  | refl a => rfl
  | symm a b _ ih => exact ih.symm
  | trans a b c _ _ hab hbc => exact hbc.trans hab

/-- A synonym can be replaced by the name that stands for both. -/
theorem variant_canonical (op : Operator) (l r : Expr) :
    Variant (.binary op l r) (.binary op.canonical l r) := by
  cases op with
  | and => exact .of_rewrites (.conjunction l r)
  | or => exact .of_rewrites (.disjunction l r)
  | _ => exact .refl _

theorem variant_plain (e : Expr) : Variant e e.plain := by
  induction e with
  | computed v => exact (Variant.of_rewrites (.compute v)).symm
  | unary e ih => exact (Variant.of_rewrites (.wrapUnary e)).symm.trans ih
  | lambda e ih => exact (Variant.of_rewrites (.wrapLambda e)).symm.trans ih
  | binary op l r ihl ihr =>
    have hleft : Variant (.binary op l r) (.binary op l.plain r) := ihl.under .left
    have hright : Variant (.binary op l.plain r) (.binary op l.plain r.plain) :=
      ihr.under .right
    exact (hleft.trans hright).trans (variant_canonical op l.plain r.plain)
  | membership i c ihi ihc =>
    have hitem : Variant (.membership i c) (.membership i.plain c) := ihi.under .item
    have hcollection : Variant (.membership i.plain c) (.membership i.plain c.plain) :=
      ihc.under .collection
    exact hitem.trans hcollection
  | literal v => exact .refl _
  | field name => exact .refl _
  | emptyLambda => exact .refl _
  | foreign kind => exact .refl _

/-- Trees are variants of each other exactly if they have one plain form. -/
theorem variant_iff_plain_eq : Variant e e' ↔ e.plain = e'.plain := by
  constructor
  · intro h
    exact h.plain_eq.symm
  · intro h
    have hplain : Variant e e'.plain := h ▸ variant_plain e
    exact hplain.trans (variant_plain e').symm

/-! ### Writing -/

theorem sql_plain (e : Expr) : e.plain.sql = e.sql := by
  induction e with
  | computed v => rw [plain, sql_literal, sql_computed]
  | unary e ih => exact ih
  | lambda e ih => exact ih
  | binary op l r ihl ihr =>
    rw [plain, sql_binary, sql_binary, Operator.token?_canonical, ihl, ihr]
  | membership i c ihi ihc => rw [plain, sql_membership, sql_membership, ihi, ihc]
  | _ => rfl

/-- A tree has the gaps of its plain form, in the same order: wrappers and synonyms are no
    gaps, and a collection without text has none in its plain form. -/
theorem gaps_plain (e : Expr) : e.plain.gaps = e.gaps := by
  induction e with
  | unary e ih => exact ih
  | lambda e ih => exact ih
  | binary op l r ihl ihr =>
    rw [plain, gaps, gaps, Operator.token?_canonical, ihl, ihr]
    by_cases htoken : op.token? = none
    · rw [Operator.canonical_of_token?_eq_none htoken]
    · rw [if_neg htoken, if_neg htoken]
  | membership i c ihi ihc => rw [plain, gaps, gaps, sql_plain, ihi, ihc]
  | _ => rfl

section

variable {m : Type → Type} [Monad m] [LawfulMonad m]

/-- Variants are written alike, behind any text and whatever is done at the gaps. -/
theorem Variant.write_eq (h : Variant e e') (onGap : Gap → m Unit) (out : String) :
    e'.write onGap out = e.write onGap out := by
  have hsql : e'.sql = e.sql := by rw [← sql_plain e', h.plain_eq, sql_plain]
  have hgaps : e'.gaps = e.gaps := by rw [← gaps_plain e', h.plain_eq, gaps_plain]
  rw [Expr.write_eq, Expr.write_eq, hsql, hgaps]

/-- Under variants of one condition a query has one statement. -/
theorem Variant.statement_eq (h : Variant e e') (q : Query) (onGap : Gap → m Unit)
    (legacySpacing : Bool) :
    statement onGap legacySpacing q.entity (q.withPredicate (some e')).clauses =
      statement onGap legacySpacing q.entity (q.withPredicate (some e)).clauses := by
  have hwhere : whereFragment onGap (q.withPredicate (some e')).clauses =
      whereFragment onGap (q.withPredicate (some e)).clauses := by
    simp only [whereFragment, Query.predicate_withPredicate, h.write_eq]
  rw [statement, hwhere]
  rfl

end

/-- Variants of a tree have its text, and its strict text or the gap with which that fails.
    A query is rendered under them as under the tree, or refused for the same reason,
    whatever the options are. -/
theorem written_alike_of_variant (h : Variant e e') :
    e'.sql = e.sql ∧ e'.strictSql = e.strictSql ∧
      ∀ (q : Query) (o : RenderOptions),
        (q.withPredicate (some e')).render o = (q.withPredicate (some e)).render o := by
  refine ⟨?_, h.write_eq throw "", ?_⟩
  · exact congrArg Id.run (h.write_eq (fun _ => pure ()) "")
  · intro q o
    have hlenient : (q.withPredicate (some e')).renderLenient o.legacySpacing =
        (q.withPredicate (some e)).renderLenient o.legacySpacing :=
      congrArg Id.run (h.statement_eq q (fun _ => pure ()) o.legacySpacing)
    have hstrict : (q.withPredicate (some e')).renderStrict o.legacySpacing =
        (q.withPredicate (some e)).renderStrict o.legacySpacing :=
      h.statement_eq q throw o.legacySpacing
    -- A condition is stored in both queries, so neither of them misses its filter.
    rw [Query.render, Query.render, hlenient, hstrict]
    rfl

/-- A foreign node before a membership test in an empty sequence. -/
def foreignBesideNothing : Expr :=
  .binary .and (.foreign "Block") ((field "Id").isIn (.literal (.array [])))

/-- The same in wrappers, with a computed sequence and the other conjunction. -/
def wrappedBesideNothing : Expr :=
  .lambda (.binary .andAlso (.unary (.foreign "Block"))
    ((lambda (field "Id")).isIn (.unary (sequence []))))

/-- Both fail with the foreign node, and neither with the empty collection. -/
theorem written_alike_of_variant_besideNothing :
    Variant foreignBesideNothing wrappedBesideNothing ∧
      wrappedBesideNothing.sql = foreignBesideNothing.sql ∧
      foreignBesideNothing.sql = "( AND (Id IN ()))" ∧
      wrappedBesideNothing.strictSql = foreignBesideNothing.strictSql ∧
      foreignBesideNothing.strictSql = .error (.node "Block") ∧
      (Query.payments.withPredicate (some wrappedBesideNothing)).render { strict := true } =
        (Query.payments.withPredicate (some foreignBesideNothing)).render { strict := true } := by
  have hvariant : Variant foreignBesideNothing wrappedBesideNothing :=
    variant_iff_plain_eq.2 rfl
  obtain ⟨hsql, hstrict, hrender⟩ := written_alike_of_variant hvariant
  exact ⟨hvariant, hsql, by decide, hstrict, rfl, hrender _ _⟩

end Expr

end SqlSelect
