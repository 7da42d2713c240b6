import SqlSelect.Proofs.Predicate.Blank
import SqlSelect.Proofs.Predicate.Skeleton
import SqlSelect.Proofs.Text.Quotes

/-!
# Predicates without their texts

What a predicate tree says apart from its texts. Emptying every text leaves the shape of
the tree, its gaps and its blank parts; and as long as no text holds a quote, it changes
nothing outside of the quotes that are written.

## Main definitions

* `Value.withoutTexts` and `Expr.withoutTexts`: every text is emptied.

## Main statements

* `Expr.gaps_withoutTexts`: the gaps do not depend on the texts;
* `Expr.sameOutside_sql`: without quotes in names and texts, the text of a tree is that of
  the emptied tree outside of quotes.
-/

namespace SqlSelect

/-! ### Values -/

namespace Value

mutual

/-- The value with each of its texts emptied, at any depth of its sequences. -/
def withoutTexts : Value → Value
  | .text _ => .text ""
  | .array items => .array (withoutTextsList items)
  | v => v

/-- The items of a sequence with each of their texts emptied. -/
def withoutTextsList : List Value → List Value
  | [] => []
  | v :: rest => v.withoutTexts :: withoutTextsList rest

end

/-- A text is written between quotes, so to empty it leaves no value blank. -/
theorem blank_withoutTexts (v : Value) : v.withoutTexts.Blank ↔ v.Blank := by
  cases v with
  | array items =>
    match items with
    | [] => rfl
    | [v] =>
      have hsingle : ∀ v : Value, (array [v]).Blank ↔ v.Blank := fun v =>
        ⟨fun h => by cases h with | single h => exact h, .single⟩
      rw [withoutTexts, withoutTextsList, withoutTextsList, hsingle, hsingle]
      exact blank_withoutTexts v
    | v :: w :: rest => exact iff_of_false (fun h => by cases h) (fun h => by cases h)
  | text s => exact iff_of_false (fun h => by cases h) (fun h => by cases h)
  | _ => rfl

/-- A value that is neither a text nor a sequence has none. -/
theorem sameOutside_sql_of_scalar {v : Value} (hv : v.isSequence = false)
    (h : ∀ s ∈ v.texts, QuoteFree s) : SameOutside v.sql.toList v.sql.toList := by
  refine .of_paired ((v.paired_sql_of_scalar hv h).mono ?_)
  rintro c hc rfl
  exact absurd hc (by decide)

mutual

/-- The literal of a value is that of the emptied value outside of quotes. -/
theorem sameOutside_sql (v : Value) (h : ∀ s ∈ v.texts, QuoteFree s) :
    SameOutside v.sql.toList v.withoutTexts.sql.toList := by
  match v, h with
  | .text s, h =>
    have hs : QuoteFree s := h s (List.mem_singleton_self s)
    simpa [withoutTexts, sql] using SameOutside.enclosed (t := []) hs (by simp)
  | .array items, h => exact sameOutside_sqlList items h
  | .null, h | .bool _, h | .int _, h | .float _, h | .decimal _, h | .dateTime _, h =>
    exact sameOutside_sql_of_scalar rfl h

theorem sameOutside_sqlList (items : List Value) (h : ∀ s ∈ textsList items, QuoteFree s) :
    SameOutside (sqlList items).toList (sqlList (withoutTextsList items)).toList := by
  match items, h with
  | [], _ => exact .nil
  | [v], h => exact sameOutside_sql v fun s hs => h s (by simpa [textsList] using hs)
  | v :: w :: rest, h =>
    have hv := sameOutside_sql v fun s hs => h s (by simp [textsList, hs])
    have hrest := sameOutside_sqlList (w :: rest) fun s hs =>
      h s (by rw [textsList, List.mem_append]; exact .inr hs)
    have hcomma : SameOutside ",".toList ",".toList := .of_quoteFree (by decide)
    simp only [withoutTextsList, sqlList, String.toList_append]
    exact (hv.append hcomma).append hrest

end

end Value

/-! ### Trees -/

theorem Operator.quoteFree_token (op : Operator) : QuoteFree (op.token?.getD "") := by
  cases op <;> decide

namespace Expr

/-- The tree with each of its texts emptied. -/
def withoutTexts : Expr → Expr
  | .literal v => .literal v.withoutTexts
  | .computed v => .computed v.withoutTexts
  | .unary e => .unary e.withoutTexts
  | .binary op left right => .binary op left.withoutTexts right.withoutTexts
  | .membership item collection => .membership item.withoutTexts collection.withoutTexts
  | .lambda body => .lambda body.withoutTexts
  | e => e

theorem sql_withoutTexts_eq_empty_iff (e : Expr) : e.withoutTexts.sql = "" ↔ e.sql = "" := by
  induction e with
  | literal v =>
    rw [withoutTexts, sql_literal, sql_literal, Value.sql_eq_empty_iff, Value.sql_eq_empty_iff,
      Value.blank_withoutTexts]
  | computed v =>
    rw [withoutTexts, sql_computed, sql_computed, Value.sql_eq_empty_iff,
      Value.sql_eq_empty_iff, Value.blank_withoutTexts]
  | unary e ih => exact ih
  | lambda e ih => exact ih
  | binary op left right => simp [withoutTexts]
  | membership item collection => simp [withoutTexts]
  | _ => rfl

/-- The gaps of a tree do not depend on its texts. -/
theorem gaps_withoutTexts (e : Expr) : e.withoutTexts.gaps = e.gaps := by
  induction e with
  | unary e ih => exact ih
  | lambda e ih => exact ih
  | binary op left right ihl ihr => rw [withoutTexts, gaps, gaps, ihl, ihr]
  | membership item collection ihi ihc =>
    simp only [withoutTexts, gaps, ihi, ihc, sql_withoutTexts_eq_empty_iff]
  | _ => rfl

/-- The text of a tree is that of the emptied tree outside of quotes. -/
theorem sameOutside_sql {e : Expr} (hnames : ∀ name ∈ e.fieldNames, QuoteFree name)
    (htexts : ∀ s ∈ e.texts, QuoteFree s) :
    SameOutside e.sql.toList e.withoutTexts.sql.toList := by
  have hfixed : ∀ {s : String}, QuoteFree s → SameOutside s.toList s.toList := fun h =>
    .of_quoteFree h
  induction e with
  | literal v =>
    simp only [withoutTexts, sql_literal]
    exact v.sameOutside_sql fun s hs => htexts s (by simpa [texts, values] using hs)
  | computed v =>
    simp only [withoutTexts, sql_computed]
    exact v.sameOutside_sql fun s hs => htexts s (by simpa [texts, values] using hs)
  | field name =>
    simp only [withoutTexts, sql_field]
    exact hfixed (hnames name List.mem_cons_self)
  | unary e ih => exact ih hnames htexts
  | lambda e ih => exact ih hnames htexts
  | binary op left right ihl ihr =>
    simp only [fieldNames, texts_binary, List.forall_mem_append] at hnames htexts
    have hl := ihl hnames.1 htexts.1
    have hr := ihr hnames.2 htexts.2
    simp only [withoutTexts, sql_binary, String.toList_append]
    exact ((((hfixed (by decide)).append hl).append (hfixed op.quoteFree_token)).append hr).append
      (hfixed (by decide))
  | membership item collection ihi ihc =>
    simp only [fieldNames, texts_membership, List.forall_mem_append] at hnames htexts
    have hi := ihi hnames.1 htexts.1
    have hc := ihc hnames.2 htexts.2
    simp only [withoutTexts, sql_membership, String.toList_append]
    exact ((((hfixed (by decide)).append hi).append (hfixed (by decide))).append hc).append
      (hfixed (by decide))
  | emptyLambda => exact .nil
  | foreign kind => exact .nil

end Expr

end SqlSelect
