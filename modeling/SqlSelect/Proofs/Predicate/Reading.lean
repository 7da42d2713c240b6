import SqlSelect.Proofs.Predicate.Skeleton
import SqlSelect.Proofs.Text.Word

/-!
# Reading predicates back

The text of a condition that is built from connectives, comparisons and membership
tests is unambiguous: it determines the skeleton of the tree.

## Main definitions

* `Operator.isCondition`: the connectives and the comparisons;
* `Expr.Legible`: conditions of plain names and of texts without quotes.

## Main statements

* `Skeleton.text_inj`: two readable skeletons with one text are equal;
* `Expr.skeleton_eq_of_sql_eq`: two legible trees with one text have one skeleton.

## Design notes

A node other than a leaf is a left operand, a separator and a right operand in
parentheses. Operands hold no sign outside of their own parentheses, and separators
start with one, so the left operand ends at the first sign. No separator is
followed by a sign, so `>` is not read where `>=` stands.
-/

namespace SqlSelect

open Nesting

/-! ### Separators -/

/-- The operator is a comparison. -/
def Operator.isComparison : Operator → Bool
  | .equal | .notEqual | .greaterThan | .greaterThanOrEqual | .lessThan | .lessThanOrEqual => true
  | _ => false

/-- The operator is a connective or a comparison. -/
def Operator.isCondition (op : Operator) : Bool := op.isLogical || op.isComparison

/-- The characters with which separators start. -/
def isSign (c : Char) : Bool := c == ' ' || c == '=' || c == '!' || c == '<' || c == '>'

/-- What stands between the two operands of a node. -/
def separators : List String :=
  [" AND ", " OR ", " IN (", "=", "!=", ">", ">=", "<", "<="]

theorem Operator.token_mem_separators {op : Operator} (h : op.isCondition = true) :
    op.token?.getD "" ∈ separators ∧ op.token?.getD "" ≠ " IN (" := by
  cases op <;> simp_all +decide

/-- Two conditions are written alike only if they are the same connective. -/
theorem Operator.canonical_eq_of_token_eq {a b : Operator} (ha : a.isCondition = true)
    (hb : b.isCondition = true) (h : a.token?.getD "" = b.token?.getD "") :
    a.canonical = b.canonical := by
  have key : ∀ a ∈ all, ∀ b ∈ all, a.isCondition = true → b.isCondition = true →
      a.token?.getD "" = b.token?.getD "" → a.canonical = b.canonical := by decide
  exact key a a.mem_all b b.mem_all ha hb h

theorem stopped_of_isSign {c : Char} (h : isSign c = true) (r : List Char) :
    Stopped isSign (c :: r) := by
  have hq : c ≠ '\'' := by
    rintro rfl
    exact absurd h (by decide)
  have ho : c ≠ '(' := by
    rintro rfl
    exact absurd h (by decide)
  exact .of_stop h hq ho

/-- An operand ends before a separator. -/
theorem stopped_separator {s : String} (hs : s ∈ separators) (r : List Char) :
    Stopped isSign (s.toList ++ r) := by
  have key : ∀ s ∈ separators, s.toList.head?.map isSign = some true := by decide
  obtain ⟨c, hc, hsign⟩ := Option.map_eq_some_iff.1 (key s hs)
  obtain ⟨l, hl⟩ := List.head?_eq_some_iff.1 hc
  rw [hl]
  exact stopped_of_isSign hsign (l ++ r)

/-- A separator that goes on where another one ends goes on with a sign. -/
theorem isSign_of_separator_extends {s t : String} (hs : s ∈ separators) (ht : t ∈ separators)
    {a : List Char} (h : t.toList = s.toList ++ a) : ∀ c ∈ a.head?, isSign c = true := by
  have key : ∀ s ∈ separators, ∀ t ∈ separators, s.toList <+: t.toList →
      (t.toList.drop s.toList.length).head?.map isSign ≠ some false := by decide
  have ha : t.toList.drop s.toList.length = a := by rw [h, List.drop_left]
  have hsome := key s hs t ht ⟨a, h.symm⟩
  intro c hc
  by_contra hsign
  refine hsome ?_
  rw [ha, Option.mem_def.1 hc, Option.map_some, eq_false_of_ne_true hsign]

/-- A separator before a text that starts with no sign is read in one way only. -/
theorem separator_append_inj {s t : String} {r₁ r₂ : List Char} (hs : s ∈ separators)
    (ht : t ∈ separators) (hr₁ : ∀ c ∈ r₁.head?, isSign c = false)
    (hr₂ : ∀ c ∈ r₂.head?, isSign c = false) (h : s.toList ++ r₁ = t.toList ++ r₂) :
    s = t ∧ r₁ = r₂ := by
  -- Neither separator goes on where the other one ends.
  have hnil : ∀ {a r : List Char}, (∀ c ∈ a.head?, isSign c = true) →
      (∀ c ∈ (a ++ r).head?, isSign c = false) → a = [] := by
    intro a r hsign hno
    cases a with
    | nil => rfl
    | cons c a =>
      have h1 := hsign c rfl
      have h2 := hno c rfl
      simp [h1] at h2
  obtain ⟨a, hta, rfl⟩ | ⟨a, hsa, rfl⟩ := List.append_eq_append_iff.1 h
  · obtain rfl := hnil (isSign_of_separator_extends hs ht hta) hr₁
    rw [List.append_nil] at hta
    exact ⟨(String.toList_inj.1 hta).symm, rfl⟩
  · obtain rfl := hnil (isSign_of_separator_extends ht hs hsa) hr₂
    rw [List.append_nil] at hsa
    exact ⟨String.toList_inj.1 hsa, rfl⟩

/-! ### Skeletons -/

namespace Skeleton

/-- A skeleton that can be read back: its leaves are operands that do not start like
    a node, and each of its operators is a condition under the one name of its
    token. -/
structure Readable (s : Skeleton) : Prop where
  leaves : ∀ t ∈ s.leaves, Operand isSign t.toList ∧ t.toList.head? ≠ some '('
  operators : ∀ op ∈ s.operators, op.isCondition = true ∧ op.canonical = op

theorem Readable.operand {s : Skeleton} (h : s.Readable) : Operand isSign s.text.toList :=
  operand_text fun t ht => (h.leaves t ht).1

theorem Readable.left {op : Operator} {l r : Skeleton} (h : (binary op l r).Readable) :
    l.Readable where
  leaves t ht := h.leaves t (List.mem_append_left _ ht)
  operators op ho := h.operators op (List.mem_cons_of_mem _ (List.mem_append_left _ ho))

theorem Readable.right {op : Operator} {l r : Skeleton} (h : (binary op l r).Readable) :
    r.Readable where
  leaves t ht := h.leaves t (List.mem_append_right _ ht)
  operators op ho := h.operators op (List.mem_cons_of_mem _ (List.mem_append_right _ ho))

theorem Readable.item {i c : Skeleton} (h : (membership i c).Readable) : i.Readable where
  leaves t ht := h.leaves t (List.mem_append_left _ ht)
  operators op ho := h.operators op (List.mem_append_left _ ho)

theorem Readable.collection {i c : Skeleton} (h : (membership i c).Readable) : c.Readable where
  leaves t ht := h.leaves t (List.mem_append_right _ ht)
  operators op ho := h.operators op (List.mem_append_right _ ho)

/-- The right operand of a node starts with no sign, even if it is empty. -/
theorem Readable.head_not_sign {s : Skeleton} (h : s.Readable) (x : List Char) :
    ∀ c ∈ (s.text.toList ++ ')' :: x).head?, isSign c = false := by
  intro c hc
  cases htext : s.text.toList with
  | nil =>
    obtain rfl : ')' = c := by simpa [htext] using hc
    rfl
  | cons d l =>
    obtain rfl : d = c := by simpa [htext] using hc
    have hscan := h.operand 0
    rw [htext, scan_cons] at hscan
    by_contra hsign
    -- The scan would stop at a sign.
    have hd : isSign d = true := by simpa using hsign
    simp [stopped_of_isSign hd l d rfl] at hscan

/-- The text of a node in parentheses determines its left operand, its separator and
    what follows. -/
theorem node_inj {l₁ l₂ r₁ r₂ : Skeleton} {s t : String} {x₁ x₂ : List Char}
    (hl₁ : l₁.Readable) (hl₂ : l₂.Readable) (hr₁ : r₁.Readable) (hr₂ : r₂.Readable)
    (hs : s ∈ separators) (ht : t ∈ separators)
    (h : '(' :: (l₁.text.toList ++ (s.toList ++ (r₁.text.toList ++ ')' :: x₁))) =
      '(' :: (l₂.text.toList ++ (t.toList ++ (r₂.text.toList ++ ')' :: x₂)))) :
    l₁.text = l₂.text ∧ s = t ∧ r₁.text.toList ++ ')' :: x₁ = r₂.text.toList ++ ')' :: x₂ := by
  obtain ⟨hl, hrest⟩ := hl₁.operand.append_inj hl₂.operand (stopped_separator hs _)
    (stopped_separator ht _) (List.cons.inj h).2
  obtain ⟨hst, hr⟩ := separator_append_inj hs ht (hr₁.head_not_sign x₁) (hr₂.head_not_sign x₂)
    hrest
  exact ⟨String.toList_inj.1 hl, hst, hr⟩

theorem toList_text_binary (op : Operator) (l r : Skeleton) :
    (binary op l r).text.toList =
      '(' :: (l.text.toList ++ ((op.token?.getD "").toList ++ (r.text.toList ++ [')']))) := by
  simp [text]

theorem toList_text_membership (i c : Skeleton) :
    (membership i c).text.toList =
      '(' :: (i.text.toList ++ (" IN (".toList ++ (c.text.toList ++ [')', ')']))) := by
  simp [text]

/-- A leaf does not read as a node. -/
theorem Readable.leaf_ne {t : String} (h : (leaf t).Readable) {l : List Char} :
    t.toList ≠ '(' :: l := by
  intro ht
  exact (h.leaves t List.mem_cons_self).2 (by rw [ht]; rfl)

/-- Two readable skeletons with one text are equal. -/
theorem text_inj {a b : Skeleton} (ha : a.Readable) (hb : b.Readable) (h : a.text = b.text) :
    a = b := by
  -- Only nodes start with a parenthesis, and the separator tells a membership test
  -- from a connective or a comparison.
  induction a generalizing b with
  | leaf t =>
    have htext : t.toList = b.text.toList := congrArg String.toList h
    cases b with
    | leaf t' => exact congrArg leaf h
    | binary op l r => exact absurd (htext.trans (toList_text_binary op l r)) ha.leaf_ne
    | membership i c => exact absurd (htext.trans (toList_text_membership i c)) ha.leaf_ne
  | binary op l r ihl ihr =>
    have htext := congrArg String.toList h
    obtain ⟨hop, hcanonical⟩ := ha.operators op List.mem_cons_self
    obtain ⟨hsep, hnin⟩ := Operator.token_mem_separators hop
    rw [toList_text_binary] at htext
    cases b with
    | leaf t' => exact absurd htext.symm hb.leaf_ne
    | binary op' l' r' =>
      obtain ⟨hop', hcanonical'⟩ := hb.operators op' List.mem_cons_self
      rw [toList_text_binary] at htext
      obtain ⟨hl, htoken, hr⟩ := node_inj ha.left hb.left ha.right hb.right hsep
        (Operator.token_mem_separators hop').1 htext
      have hopeq := Operator.canonical_eq_of_token_eq hop hop' htoken
      rw [hcanonical, hcanonical'] at hopeq
      have hrtext : r.text = r'.text := String.toList_inj.1 (List.append_cancel_right hr)
      rw [hopeq, ihl ha.left hb.left hl, ihr ha.right hb.right hrtext]
    | membership i c =>
      rw [toList_text_membership] at htext
      obtain ⟨-, htoken, -⟩ := node_inj ha.left hb.item ha.right hb.collection hsep (by decide)
        htext
      exact absurd htoken hnin
  | membership i c ihi ihc =>
    have htext := congrArg String.toList h
    rw [toList_text_membership] at htext
    cases b with
    | leaf t' => exact absurd htext.symm hb.leaf_ne
    | binary op l r =>
      obtain ⟨hop, -⟩ := hb.operators op List.mem_cons_self
      obtain ⟨hsep, hnin⟩ := Operator.token_mem_separators hop
      rw [toList_text_binary] at htext
      obtain ⟨-, htoken, -⟩ := node_inj ha.item hb.left ha.collection hb.right (by decide) hsep
        htext
      exact absurd htoken.symm hnin
    | membership i' c' =>
      rw [toList_text_membership] at htext
      obtain ⟨hi, -, hc⟩ := node_inj ha.item hb.item ha.collection hb.collection (by decide)
        (by decide) htext
      have hctext : c.text = c'.text := String.toList_inj.1 (List.append_cancel_right hc)
      rw [ihi ha.item hb.item hi, ihc ha.collection hb.collection hctext]

end Skeleton

/-! ### Legible trees -/

/-- A class of characters that leaves out the signs. -/
theorem isSign_eq_false {p : Char → Bool} {c : Char}
    (hp : p ' ' = false ∧ p '=' = false ∧ p '!' = false ∧ p '<' = false ∧ p '>' = false)
    (hc : p c = true) : isSign c = false := by
  have hne : ∀ a, p a = false → (c == a) = false := by
    intro a ha
    rw [beq_eq_false_iff_ne]
    rintro rfl
    simp [hc] at ha
  obtain ⟨hblank, heq, hnot, hlt, hgt⟩ := hp
  simp [isSign, hne _ hblank, hne _ heq, hne _ hnot, hne _ hlt, hne _ hgt]

theorem isSign_of_isScalarChar {c : Char} (hc : isScalarChar c = true) : isSign c = false :=
  isSign_eq_false (p := isScalarChar) (by decide) hc

theorem harmless_of_isNameChar {c : Char} (hc : isNameChar c = true) : Harmless isSign c :=
  harmless_of_class (p := isNameChar) (by decide) hc
    (isSign_eq_false (p := isNameChar) (by decide) hc)

namespace Expr

/-- A condition of plain names and of texts without quotes, whose operators are
    connectives and comparisons. -/
structure Legible (e : Expr) : Prop where
  operators : ∀ op ∈ e.operators, op.isCondition = true
  names : ∀ name ∈ e.fieldNames, IsWord name
  texts : ∀ s ∈ e.texts, '\'' ∉ s.toList

theorem Legible.readable {e : Expr} (h : e.Legible) : e.skeleton.Readable where
  leaves t ht := by
    obtain rfl | hname | ⟨v, hv, rfl⟩ := hasLeaf_of_mem ht
    · exact ⟨.nil, by decide⟩
    · have hchar := h.names t hname
      refine ⟨.of_forall fun c hc => harmless_of_isNameChar (hchar c hc), fun hhead => ?_⟩
      exact absurd (hchar '(' (List.mem_of_mem_head? hhead)) (by decide)
    · have htexts : ∀ s ∈ v.texts, '\'' ∉ s.toList := fun s hs =>
        h.texts s (List.mem_flatMap.2 ⟨v, hv, hs⟩)
      have hoperand : Operand isSign v.sql.toList :=
        Value.operand_sql (fun c hc => isSign_of_isScalarChar hc) (by decide) htexts
      refine ⟨hoperand, fun hhead => ?_⟩
      -- A literal starts with a quote, a scalar character or a comma.
      exact absurd ((v.paired_sql htexts).head hhead) (by decide)
  operators op ho := by
    rw [operators_skeleton] at ho
    obtain ⟨op', ho', rfl⟩ := List.mem_map.1 ho
    have hop := h.operators op' ho'
    cases op' <;> simp_all +decide

/-- The text of a legible tree determines its skeleton. -/
theorem skeleton_eq_of_sql_eq {a b : Expr} (ha : a.Legible) (hb : b.Legible)
    (h : a.sql = b.sql) : a.skeleton = b.skeleton := by
  rw [sql_eq_text, sql_eq_text] at h
  exact Skeleton.text_inj ha.readable hb.readable h

/-- A wrapped tree and a bare one, around a text that looks like SQL. -/
theorem skeleton_eq_of_sql_eq_wrapped :
    (lambda (binary .and (field "x") (literal (.text "y) OR (z")))).Legible ∧
      ((field "x").and (computed (.text "y) OR (z"))).Legible ∧
      (lambda (binary .and (field "x") (literal (.text "y) OR (z")))).sql =
        ((field "x").and (computed (.text "y) OR (z"))).sql ∧
      (lambda (binary .and (field "x") (literal (.text "y) OR (z")))).skeleton =
        ((field "x").and (computed (.text "y) OR (z"))).skeleton := by
  have ha : (lambda (binary .and (field "x") (literal (.text "y) OR (z")))).Legible :=
    ⟨by decide, by decide, by decide⟩
  have hb : ((field "x").and (computed (.text "y) OR (z"))).Legible :=
    ⟨by decide, by decide, by decide⟩
  exact ⟨ha, hb, by decide, skeleton_eq_of_sql_eq ha hb (by decide)⟩

end Expr

end SqlSelect
