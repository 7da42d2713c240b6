import Mathlib.Data.Bool.AllAny
import SqlSelect.Proofs.Predicate.Gaps
import SqlSelect.Proofs.Value.Characters

/-!
# Skeletons of predicate trees

What is left of a predicate tree in its text: wrappers are gone, synonymous
connectives are one, and a leaf is its text. Every fact about the text of a tree
comes from its leaves and from the parentheses around every other node.

## Main definitions

* `Expr.fieldNames`, `Expr.values`, `Expr.texts` and `Expr.operators`: the names,
  the values, the texts and the operators in a tree;
* `Skeleton`, `Expr.skeleton` and `Skeleton.text`.

## Main statements

* `Expr.sql_eq_text`: a tree has the text of its skeleton;
* `Skeleton.operand_text`: the text of a skeleton whose leaves are operands is one;
* `Expr.operand_sql`: the same for a tree with harmless names and texts.
-/

namespace SqlSelect

open Nesting

/-! ### What a tree mentions -/

namespace Expr

/-- The names of the columns in a tree. -/
def fieldNames : Expr → List String
  | .field name => [name]
  | .unary e | .lambda e => e.fieldNames
  | .binary _ left right => left.fieldNames ++ right.fieldNames
  | .membership item collection => item.fieldNames ++ collection.fieldNames
  | _ => []

def values : Expr → List Value
  | .literal v | .computed v => [v]
  | .unary e | .lambda e => e.values
  | .binary _ left right => left.values ++ right.values
  | .membership item collection => item.values ++ collection.values
  | _ => []

/-- The texts in the values of a tree, at any depth of their sequences. -/
def texts (e : Expr) : List String := e.values.flatMap Value.texts

@[simp] theorem texts_binary (op : Operator) (left right : Expr) :
    (binary op left right).texts = left.texts ++ right.texts :=
  List.flatMap_append

@[simp] theorem texts_membership (item collection : Expr) :
    (membership item collection).texts = item.texts ++ collection.texts :=
  List.flatMap_append

def operators : Expr → List Operator
  | .unary e | .lambda e => e.operators
  | .binary op left right => op :: (left.operators ++ right.operators)
  | .membership item collection => item.operators ++ collection.operators
  | _ => []

end Expr

/-- One name for each connective: the two conjunctions are written alike, and so are
    the two disjunctions. -/
def Operator.canonical : Operator → Operator
  | .and => .andAlso
  | .or => .orElse
  | op => op

@[simp] theorem Operator.token?_canonical (op : Operator) : op.canonical.token? = op.token? := by
  cases op <;> rfl

/-! ### Skeletons -/

/-- A tree of binary and membership nodes over texts. -/
inductive Skeleton where
  | leaf (text : String)
  | binary (op : Operator) (left right : Skeleton)
  | membership (item collection : Skeleton)

/-- A tree without its wrappers, with one name for each connective, and with the text
    of each leaf in its place. -/
def Expr.skeleton : Expr → Skeleton
  | .unary e | .lambda e => e.skeleton
  | .binary op left right => .binary op.canonical left.skeleton right.skeleton
  | .membership item collection => .membership item.skeleton collection.skeleton
  | e => .leaf e.sql

namespace Skeleton

/-- The text of a skeleton. -/
def text : Skeleton → String
  | .leaf text => text
  | .binary op left right => "(" ++ left.text ++ op.token?.getD "" ++ right.text ++ ")"
  | .membership item collection => "(" ++ item.text ++ " IN (" ++ collection.text ++ "))"

def leaves : Skeleton → List String
  | .leaf text => [text]
  | .binary _ left right => left.leaves ++ right.leaves
  | .membership item collection => item.leaves ++ collection.leaves

def operators : Skeleton → List Operator
  | .leaf _ => []
  | .binary op left right => op :: (left.operators ++ right.operators)
  | .membership item collection => item.operators ++ collection.operators

end Skeleton

namespace Expr

/-- The skeleton holds all of the text. -/
theorem sql_eq_text (e : Expr) : e.sql = e.skeleton.text := by
  induction e with
  | unary e ih => exact ih
  | lambda e ih => exact ih
  | binary op left right ihl ihr => simp [skeleton, Skeleton.text, ihl, ihr]
  | membership item collection ihi ihc => simp [skeleton, Skeleton.text, ihi, ihc]
  | _ => rfl

theorem operators_skeleton (e : Expr) :
    e.skeleton.operators = e.operators.map Operator.canonical := by
  induction e with
  | unary e ih => exact ih
  | lambda e ih => exact ih
  | binary op left right ihl ihr => simp [skeleton, Skeleton.operators, operators, ihl, ihr]
  | membership item collection ihi ihc =>
    simp [skeleton, Skeleton.operators, operators, ihi, ihc]
  | _ => rfl

/-- What can be a leaf of a tree: nothing, the name of a column, or a literal. -/
def HasLeaf (e : Expr) (t : String) : Prop :=
  t = "" ∨ t ∈ e.fieldNames ∨ ∃ v ∈ e.values, t = v.sql

theorem HasLeaf.mono {e e' : Expr} {t : String} (h : e.HasLeaf t)
    (hnames : e.fieldNames ⊆ e'.fieldNames) (hvalues : e.values ⊆ e'.values) :
    e'.HasLeaf t := by
  obtain h | h | ⟨v, hv, h⟩ := h
  · exact .inl h
  · exact .inr (.inl (hnames h))
  · exact .inr (.inr ⟨v, hvalues hv, h⟩)

theorem hasLeaf_of_mem {e : Expr} {t : String} (h : t ∈ e.skeleton.leaves) : e.HasLeaf t := by
  induction e with
  | literal v =>
    have ht : t = v.sql := by simpa [skeleton, Skeleton.leaves] using h
    exact .inr (.inr ⟨v, List.mem_cons_self, ht⟩)
  | computed v =>
    have ht : t = v.sql := by simpa [skeleton, Skeleton.leaves] using h
    exact .inr (.inr ⟨v, List.mem_cons_self, ht⟩)
  | field name =>
    have ht : t = name := by simpa [skeleton, Skeleton.leaves] using h
    exact .inr (.inl (List.mem_singleton.2 ht))
  | emptyLambda => exact .inl (by simpa [skeleton, Skeleton.leaves] using h)
  | foreign kind => exact .inl (by simpa [skeleton, Skeleton.leaves] using h)
  | unary e ih => exact ih h
  | lambda e ih => exact ih h
  | binary op left right ihl ihr =>
    obtain h | h := List.mem_append.1 h
    · exact (ihl h).mono (List.subset_append_left _ _) (List.subset_append_left _ _)
    · exact (ihr h).mono (List.subset_append_right _ _) (List.subset_append_right _ _)
  | membership item collection ihi ihc =>
    obtain h | h := List.mem_append.1 h
    · exact (ihi h).mono (List.subset_append_left _ _) (List.subset_append_left _ _)
    · exact (ihc h).mono (List.subset_append_right _ _) (List.subset_append_right _ _)

end Expr

/-! ### Operands -/

section

variable {stop : Char → Bool}

/-- The text of a value whose texts hold no quote. -/
theorem Value.operand_sql (hscalar : ∀ c, isScalarChar c = true → stop c = false)
    (hcomma : stop ',' = false) {v : Value} (h : ∀ s ∈ v.texts, '\'' ∉ s.toList) :
    Operand stop v.sql.toList := by
  refine (v.paired_sql h).operand fun c hc => ?_
  obtain hc | rfl := hc
  · exact harmless_of_class (p := isScalarChar) (by decide) hc (hscalar c hc)
  · exact ⟨by decide, by decide, by decide, hcomma⟩

/-- Where nothing stops a scan every token may stand. -/
theorem Operator.operand_token (op : Operator) :
    Operand (fun _ => false) (op.token?.getD "").toList := by
  refine .of_forall (List.all_iff_forall_prop.1 ?_)
  cases op <;> decide

theorem operand_in : Operand (fun _ => false) [' ', 'I', 'N', ' '] :=
  .of_forall (List.all_iff_forall_prop.1 (by decide))

/-- The parentheses around its nodes make the text of a skeleton an operand, if its
    leaves are. -/
theorem Skeleton.operand_text {s : Skeleton} (h : ∀ t ∈ s.leaves, Operand stop t.toList) :
    Operand stop s.text.toList := by
  -- The token of a node stands between its parentheses, where it need not be harmless.
  induction s with
  | leaf t => exact h t List.mem_cons_self
  | binary op left right ihl ihr =>
    have hl := ihl fun t ht => h t (List.mem_append_left _ ht)
    have hr := ihr fun t ht => h t (List.mem_append_right _ ht)
    have hinner := (hl.inner.append op.operand_token.inside).append hr.inner
    simpa [text] using hinner.parens
  | membership item collection ihi ihc =>
    have hi := ihi fun t ht => h t (List.mem_append_left _ ht)
    have hc := ihc fun t ht => h t (List.mem_append_right _ ht)
    have hinner := (hi.inner.append operand_in.inside).append hc.inner.parens.inner
    simpa [text] using hinner.parens

/-- A scan passes the text of a tree, whatever its operators and nodes, if the names
    of its columns are harmless and its texts hold no quote. -/
theorem Expr.operand_sql (hscalar : ∀ c, isScalarChar c = true → stop c = false)
    (hcomma : stop ',' = false) {e : Expr}
    (hnames : ∀ name ∈ e.fieldNames, ∀ c ∈ name.toList, Harmless stop c)
    (htexts : ∀ s ∈ e.texts, '\'' ∉ s.toList) : Operand stop e.sql.toList := by
  rw [sql_eq_text]
  refine Skeleton.operand_text fun t ht => ?_
  obtain rfl | hname | ⟨v, hv, rfl⟩ := hasLeaf_of_mem ht
  · exact .nil
  · exact .of_forall (hnames t hname)
  · exact Value.operand_sql hscalar hcomma fun s hs =>
      htexts s (List.mem_flatMap.2 ⟨v, hv, hs⟩)

end

end SqlSelect
