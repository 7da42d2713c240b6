import SqlSelect.Proofs.Predicate.Blank
import SqlSelect.Proofs.Predicate.Skeleton

/-!
# Operands without text

Gaps are noticed at the node where they are, so strict rendering refuses a foreign operand
and an empty collection. An empty lambda and an empty sequence are no gaps: where they are
an operand, the operator is written with nothing beside it.

## Main definitions

* `Expr.NodeOf`: the parts of a tree, one at each of its nodes;
* `Expr.Hollow`: the trees that have no text although they have no gap.

## Main statements

* `Expr.NodeOf.gaps_subset`: a tree has the gaps of its parts;
* `Expr.sql_eq_empty_iff_hollow`: which trees without gaps have no text;
* `Expr.strictSql_operands`: which operands of a tree with a strict text have none.
-/

namespace SqlSelect.Expr

/-! ### Parts of a tree -/

/-- The trees right below the root. -/
def children : Expr → List Expr
  | .unary e | .lambda e => [e]
  | .binary _ left right => [left, right]
  | .membership item collection => [item, collection]
  | _ => []

/-- The tree `x` is the part of `e` at one of its nodes. -/
inductive NodeOf : Expr → Expr → Prop
  | root {x : Expr} : NodeOf x x
  | child {x c e : Expr} (hx : NodeOf x c) (hc : c ∈ e.children) : NodeOf x e

namespace NodeOf

variable {x c e : Expr}

theorem iff_exists_child : NodeOf x e ↔ x = e ∨ ∃ c ∈ e.children, NodeOf x c := by
  constructor
  · rintro (_ | ⟨hx, hc⟩)
    · exact .inl rfl
    · exact .inr ⟨_, hc, hx⟩
  · rintro (rfl | ⟨c, hc, hx⟩)
    · exact .root
    · exact .child hx hc

theorem of_mem_children (h : NodeOf x e) (hc : c ∈ x.children) : NodeOf c e := by
  induction h with
  | root => exact .child .root hc
  | child _ hd ih => exact .child ih hd

theorem left {op : Operator} {l r : Expr} (h : NodeOf (.binary op l r) e) : NodeOf l e :=
  h.of_mem_children List.mem_cons_self

theorem right {op : Operator} {l r : Expr} (h : NodeOf (.binary op l r) e) : NodeOf r e :=
  h.of_mem_children (List.mem_cons_of_mem _ List.mem_cons_self)

theorem item {i d : Expr} (h : NodeOf (.membership i d) e) : NodeOf i e :=
  h.of_mem_children List.mem_cons_self

theorem collection {i d : Expr} (h : NodeOf (.membership i d) e) : NodeOf d e :=
  h.of_mem_children (List.mem_cons_of_mem _ List.mem_cons_self)

/-- What every node takes over from the trees right below it, a tree takes over from all of
    its parts. -/
theorem subset {α : Type} {f : Expr → List α} (unary : ∀ e, f e ⊆ f (.unary e))
    (lambda : ∀ e, f e ⊆ f (.lambda e))
    (binary : ∀ op l r, f l ++ f r ⊆ f (.binary op l r))
    (membership : ∀ i d, f i ++ f d ⊆ f (.membership i d)) (h : NodeOf x e) : f x ⊆ f e := by
  have hchild : ∀ e, ∀ c ∈ e.children, f c ⊆ f e := by
    intro e c hc
    cases e with
    | binary op l r =>
      have hboth := List.append_subset.1 (binary op l r)
      obtain rfl | rfl : c = l ∨ c = r := by simpa [children] using hc
      · exact hboth.1
      · exact hboth.2
    | membership i d =>
      have hboth := List.append_subset.1 (membership i d)
      obtain rfl | rfl : c = i ∨ c = d := by simpa [children] using hc
      · exact hboth.1
      · exact hboth.2
    | unary e =>
      obtain rfl := List.mem_singleton.1 hc
      exact unary c
    | lambda e =>
      obtain rfl := List.mem_singleton.1 hc
      exact lambda c
    | _ => cases hc
  induction h with
  | root => exact List.Subset.refl _
  | child _ hc ih => exact List.Subset.trans ih (hchild _ _ hc)

/-- A tree has the gaps of its parts. -/
theorem gaps_subset (h : NodeOf x e) : x.gaps ⊆ e.gaps := by
  refine h.subset (fun e => List.Subset.refl e.gaps) (fun e => List.Subset.refl e.gaps)
    (fun op l r => List.subset_append_right _ _) (fun i d => List.append_subset.2 ⟨?_, ?_⟩)
  -- A membership has the gaps of its collection before those of its item.
  · exact List.subset_append_of_subset_right _ (List.subset_append_right _ _)
  · exact List.subset_append_left _ _

theorem fieldNames_subset (h : NodeOf x e) : x.fieldNames ⊆ e.fieldNames :=
  h.subset (fun e => List.Subset.refl e.fieldNames) (fun e => List.Subset.refl e.fieldNames)
    (fun _ l r => List.Subset.refl (l.fieldNames ++ r.fieldNames))
    fun i d => List.Subset.refl (i.fieldNames ++ d.fieldNames)

theorem texts_subset (h : NodeOf x e) : x.texts ⊆ e.texts := by
  refine h.subset (fun e => List.Subset.refl e.texts) (fun e => List.Subset.refl e.texts)
    (fun op l r => ?_) (fun i d => ?_)
  · rw [texts_binary]
    exact List.Subset.refl _
  · rw [texts_membership]
    exact List.Subset.refl _

/-- Every part of a tree without gaps is one. -/
theorem gaps_eq_nil (h : NodeOf x e) (he : e.gaps = []) : x.gaps = [] :=
  List.subset_nil.1 (he ▸ h.gaps_subset)

end NodeOf

/-! ### Hollow trees -/

/-- Under its wrappers the tree is an empty lambda or a blank value. -/
def Hollow : Expr → Prop
  | .unary e | .lambda e => e.Hollow
  | .literal v | .computed v => v.Blank
  | .emptyLambda => True
  | _ => False

/-- A tree without gaps, all of whose columns have names, has no text exactly if it is
    hollow. -/
theorem sql_eq_empty_iff_hollow {e : Expr} (hgaps : e.gaps = [])
    (hnames : ∀ name ∈ e.fieldNames, name ≠ "") : e.sql = "" ↔ e.Hollow := by
  induction e with
  | literal v => rw [sql_literal, Value.sql_eq_empty_iff]; rfl
  | computed v => rw [sql_computed, Value.sql_eq_empty_iff]; rfl
  | field name =>
    have hname : name ≠ "" := hnames name List.mem_cons_self
    exact iff_of_false (by simpa using hname) id
  | unary e ih => exact ih hgaps hnames
  | lambda e ih => exact ih hgaps hnames
  -- A node has its parentheses at least.
  | binary op left right => exact iff_of_false (by simp) id
  | membership item collection => exact iff_of_false (by simp) id
  | emptyLambda => exact iff_of_true rfl trivial
  | foreign kind => cases hgaps

/-! ### Operands -/

/-- A collection of a tree without gaps has a text. -/
theorem collection_sql_ne_empty {item collection : Expr}
    (h : (membership item collection).gaps = []) : collection.sql ≠ "" := by
  intro hempty
  simp [gaps, hempty] at h

/-- Each part of a tree with a strict text has one too, and it is its lenient text. If all
    columns have names, only hollow operands are without text, and collections never are. -/
theorem strictSql_operands {e : Expr} {sql : String} (h : e.strictSql = .ok sql)
    (hnames : ∀ name ∈ e.fieldNames, name ≠ "") :
    (∀ x, NodeOf x e → x.strictSql = .ok x.sql) ∧
      (∀ op left right, NodeOf (.binary op left right) e →
        (left.sql = "" ↔ left.Hollow) ∧ (right.sql = "" ↔ right.Hollow)) ∧
      ∀ item collection, NodeOf (.membership item collection) e →
        (item.sql = "" ↔ item.Hollow) ∧ collection.sql ≠ "" := by
  have hgaps : e.gaps = [] := (strictSql_eq_ok_iff.1 h).1
  have hempty : ∀ x, NodeOf x e → (x.sql = "" ↔ x.Hollow) := fun x hx =>
    sql_eq_empty_iff_hollow (hx.gaps_eq_nil hgaps) fun name hname =>
      hnames name (hx.fieldNames_subset hname)
  refine ⟨fun x hx => ?_, fun op left right hx => ?_, fun item collection hx => ?_⟩
  · exact strictSql_eq_ok_iff.2 ⟨hx.gaps_eq_nil hgaps, rfl⟩
  · exact ⟨hempty left hx.left, hempty right hx.right⟩
  · exact ⟨hempty item hx.item, collection_sql_ne_empty (hx.gaps_eq_nil hgaps)⟩

/-- A comparison with a nested empty sequence beside a membership test of a column. -/
def comparedWithNothing : Expr :=
  ((field "a").eq (.unary (.computed (.array [.array []])))).and
    ((field "b").isIn (.sequence [.int 1]))

theorem strictSql_operands_comparedWithNothing :
    comparedWithNothing.strictSql = .ok "((a=) AND (b IN (1)))" ∧
      (∀ name ∈ comparedWithNothing.fieldNames, name ≠ "") ∧
      ((field "a").sql = "" ↔ (field "a").Hollow) ∧
      (Expr.unary (.computed (.array [.array []]))).Hollow ∧
      (sequence [.int 1]).sql ≠ "" := by
  have hsql : comparedWithNothing.strictSql = .ok "((a=) AND (b IN (1)))" := rfl
  have hnames : ∀ name ∈ comparedWithNothing.fieldNames, name ≠ "" := by decide
  obtain ⟨-, hbinary, hmembership⟩ := strictSql_operands hsql hnames
  have hleft := hbinary .equal (field "a") (.unary (.computed (.array [.array []])))
    (.child .root List.mem_cons_self)
  have hright := hmembership (field "b") (.sequence [.int 1])
    (.child .root (List.mem_cons_of_mem _ List.mem_cons_self))
  exact ⟨hsql, hnames, hleft.1, hleft.2.1 rfl, hright.2⟩

/-- An empty lambda is no gap: strict rendering compares a column with nothing. -/
theorem emptyLambda_operand_has_strictSql :
    ¬ ∀ (e : Expr) (sql : String), (∀ name ∈ e.fieldNames, name ≠ "") → e.strictSql = .ok sql →
      (∀ op left right, NodeOf (.binary op left right) e → left.sql ≠ "" ∧ right.sql ≠ "") ∧
      ∀ item collection, NodeOf (.membership item collection) e →
        item.sql ≠ "" ∧ collection.sql ≠ "" := by
  intro h
  have hsql : ((field "a").eq .emptyLambda).strictSql = .ok "(a=)" := rfl
  have hoperands := (h ((field "a").eq .emptyLambda) "(a=)" (by decide) hsql).1
  exact (hoperands .equal (field "a") .emptyLambda .root).2 rfl

end SqlSelect.Expr
