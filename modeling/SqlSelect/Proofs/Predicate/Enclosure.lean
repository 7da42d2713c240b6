import SqlSelect.Proofs.Predicate.Operands

/-!
# Predicates as one operand

The text of a predicate tree can stand beside any other text without the two running into
each other. Outside of its quotes it closes every parenthesis that it opens and no other,
and it has no blank outside of its parentheses. The text of a binary or a membership node
stands in one pair of parentheses, so nothing around it can regroup its parts.

## Main definitions

* `Expr.Contained`: a tree whose names and texts do not read as parts of a text around them;
* `Expr.ReadsAsOne`: a text reads as one operand for a tree.

## Main statements

* `Expr.Contained.operand`: the text of such a tree is an operand;
* `Expr.IsCompound.parenthesised`: that of a compound tree is enclosed in parentheses;
* `Expr.readsAsOne_sql`: so the lenient and the strict text of a tree read as one operand.
-/

namespace SqlSelect

open Nesting

namespace Expr

/-- The names in the tree have no quotes, parentheses and blanks, and its texts have no
    quotes. -/
structure Contained (e : Expr) : Prop where
  names : ∀ name ∈ e.fieldNames, ∀ c ∈ name.toList, c ≠ '\'' ∧ c ≠ '(' ∧ c ≠ ')' ∧ c ≠ ' '
  texts : ∀ s ∈ e.texts, '\'' ∉ s.toList

namespace Contained

variable {x e : Expr}

/-- What holds of the names and texts in a tree holds of those in its parts. -/
theorem of_nodeOf (h : e.Contained) (hx : NodeOf x e) : x.Contained where
  names name hname := h.names name (hx.fieldNames_subset hname)
  texts s hs := h.texts s (hx.texts_subset hs)

/-- A scan that stops at blanks, or at nothing, passes the text of the tree. -/
theorem operand (h : e.Contained) {stop : Char → Bool} (hstop : ∀ c, c ≠ ' ' → stop c = false) :
    Operand stop e.sql.toList := by
  apply operand_sql
  · intro c hc
    apply hstop
    rintro rfl
    exact absurd hc (by decide)
  · exact hstop ',' (by decide)
  · intro name hname c hc
    obtain ⟨hquote, hopen, hclose, hblank⟩ := h.names name hname c hc
    exact ⟨hquote, hopen, hclose, hstop c hblank⟩
  · exact h.texts

end Contained

/-- The text of a compound tree stands in one pair of parentheses. -/
theorem IsCompound.parenthesised {e : Expr} (h : e.IsCompound) (he : e.Contained)
    (stop : Char → Bool) : Parenthesised stop e.sql.toList := by
  induction h with
  | unary _ ih => exact ih (he.of_nodeOf (.child .root List.mem_cons_self))
  | lambda _ ih => exact ih (he.of_nodeOf (.child .root List.mem_cons_self))
  -- Between the parentheses stand operands, and a token at which nothing stops.
  | binary op left right =>
    have hleft : Operand (fun _ => false) left.sql.toList :=
      (he.of_nodeOf (NodeOf.left .root)).operand fun _ _ => rfl
    have hright : Operand (fun _ => false) right.sql.toList :=
      (he.of_nodeOf (NodeOf.right .root)).operand fun _ _ => rfl
    have hinner := (hleft.append op.operand_token).append hright
    simpa using hinner.parenthesised stop
  | membership item collection =>
    have hitem : Operand (fun _ => false) item.sql.toList :=
      (he.of_nodeOf (NodeOf.item .root)).operand fun _ _ => rfl
    have hcollection : Operand (fun _ => false) collection.sql.toList :=
      (he.of_nodeOf (NodeOf.collection .root)).operand fun _ _ => rfl
    have hinner := (hitem.append operand_in).append hcollection.inner.parens
    simpa using hinner.parenthesised stop

/-- The text reads as one operand: a scan that stops at blanks passes it at every depth, and
    for a compound tree it stands in one pair of parentheses. -/
structure ReadsAsOne (e : Expr) (text : String) : Prop where
  operand : Operand (· == ' ') text.toList
  parenthesised : e.IsCompound → Parenthesised (· == ' ') text.toList

/-- The text of a tree reads as one operand, whatever its operators and nodes, and so does
    its strict text if it has one. -/
theorem readsAsOne_sql {e : Expr} (h : e.Contained) :
    e.ReadsAsOne e.sql ∧ ∀ sql, e.strictSql = .ok sql → e.ReadsAsOne sql := by
  have hone : e.ReadsAsOne e.sql := by
    refine ⟨h.operand ?_, fun hcompound => hcompound.parenthesised h _⟩
    intro c hc
    exact beq_eq_false_iff_ne.2 hc
  refine ⟨hone, ?_⟩
  intro sql hsql
  obtain ⟨-, rfl⟩ := strictSql_eq_ok_iff.1 hsql
  exact hone

/-- A sum without a token in a nested collection, beside texts that look like SQL. -/
def sumInComparison : Expr :=
  .unary ((binary .add (field "a.b") (literal (.text ") OR (1 = 1"))).isIn
    (.lambda ((field "c").eq (sequence [.text "x, y", .array [], .int (-1)]))))

theorem readsAsOne_sql_sumInComparison :
    sumInComparison.Contained ∧ sumInComparison.IsCompound ∧
      sumInComparison.sql = "((a.b') OR (1 = 1') IN ((c='x, y',,-1)))" ∧
      Operand (· == ' ') sumInComparison.sql.toList ∧
      Parenthesised (· == ' ') sumInComparison.sql.toList := by
  have hnames : ∀ name ∈ sumInComparison.fieldNames,
      name.toList.all (fun c => c ≠ '\'' ∧ c ≠ '(' ∧ c ≠ ')' ∧ c ≠ ' ') = true := by decide
  have hcontained : sumInComparison.Contained :=
    ⟨fun name hname => List.all_iff_forall_prop.1 (hnames name hname), by decide⟩
  have hcompound : sumInComparison.IsCompound := .unary (.membership _ _)
  have hone := (readsAsOne_sql hcontained).1
  exact ⟨hcontained, hcompound, by decide, hone.operand, hone.parenthesised hcompound⟩

end Expr

end SqlSelect
