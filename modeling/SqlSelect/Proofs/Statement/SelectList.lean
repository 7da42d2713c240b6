import SqlSelect.Proofs.Statement.Projection
import SqlSelect.Proofs.Text.Word

/-!
# The SELECT list

The SELECT list as a list of items, the columns before the aggregates, and what of
it its text determines.

## Main definitions

* `SelectItem`: a column, or an aggregate of one;
* `selectItems`: the items of a statement;
* `Following`: the texts that can stand behind an item.

## Main statements

* `items_append_inj`: items that are each written after a comma can be read back;
* `selectList_append_inj`: so can a SELECT list, whether it starts with a column or,
  for want of one, with the comma of an aggregate.
-/

namespace SqlSelect

/-- An item of a SELECT list. -/
inductive SelectItem where
  | column (name : String)
  | aggregate (function name : String)

namespace SelectItem

def text : SelectItem → String
  | .column name => name
  | .aggregate function name => aggregateText function name

def IsPlain : SelectItem → Prop
  | .column name => IsPlainName name
  | .aggregate function name => IsPlainName function ∧ IsPlainName name

/-- The name of an item that is a column. -/
def column? : SelectItem → Option String
  | .column name => some name
  | .aggregate _ _ => none

/-- The name under an item that is an aggregate by the given function. -/
def argument? (function : String) : SelectItem → Option String
  | .column _ => none
  | .aggregate f name => if f = function then some name else none

def afterComma (i : SelectItem) : List Char := ',' :: i.text.toList

end SelectItem

/-- The aggregates of a statement: the sums, then the counts. -/
def aggregateItems (c : Clauses) : List SelectItem :=
  c.sum.map (.aggregate "SUM") ++ c.count.map (.aggregate "COUNT")

/-- The items of the SELECT list of a statement. -/
def selectItems (e : Entity) (c : Clauses) : List SelectItem :=
  (projectionFields e c).map .column ++ aggregateItems c

/-! ### The text of the list -/

/-- Names with commas between them are names that each stand after a comma, but for
    the first comma. -/
theorem comma_cons_commaList {names : List String} (h : names ≠ []) :
    ',' :: (commaList names).toList =
      (names.map SelectItem.column).flatMap SelectItem.afterComma := by
  induction names with
  | nil => exact absurd rfl h
  | cons name rest ih =>
    cases rest with
    | nil => simp [commaList, SelectItem.afterComma, SelectItem.text]
    | cons next rest =>
      have htail := ih (List.cons_ne_nil _ _)
      rw [List.map_cons, List.flatMap_cons, ← htail]
      simp [commaList, SelectItem.afterComma, SelectItem.text]

theorem commaList_ne_empty {names : List String} (h : ∀ name ∈ names, name ≠ "")
    (hne : names ≠ []) : commaList names ≠ "" := by
  intro hempty
  have hcomma := comma_cons_commaList hne
  obtain ⟨name, rest, rfl⟩ := List.exists_cons_of_ne_nil hne
  rw [hempty, List.map_cons, List.flatMap_cons] at hcomma
  -- Nothing follows the comma, so the first name has no character.
  have hname := (List.append_eq_nil_iff.1 (List.cons.inj hcomma).2.symm).1
  exact h name List.mem_cons_self (String.toList_eq_nil_iff.1 hname)

theorem toList_aggregatesText (c : Clauses) :
    (aggregatesText c).toList = (aggregateItems c).flatMap SelectItem.afterComma := by
  simp [aggregatesText, aggregateItems, List.flatMap_map, SelectItem.afterComma, Function.comp_def,
    SelectItem.text]

/-! ### Reading items -/

/-- A text that can stand behind an item: it is empty, or it starts with a comma or a
    blank. -/
def Following (r : List Char) : Prop := ∀ c ∈ r.head?, c = ',' ∨ c = ' '

theorem Following.nameEnd {r : List Char} (h : Following r) : NameEnd r := by
  intro c hc
  obtain rfl | rfl := h c hc
  · decide
  · decide

theorem SelectItem.toList_text_aggregate (function name : String) (r : List Char) :
    (aggregate function name).text.toList ++ r =
      function.toList ++ '(' :: (name.toList ++ ')' ::
        (" AS ".toList ++ (name.toList ++ r))) := by
  simp [text, aggregateText]

/-- An item is read back before a comma or a blank: a name is a column unless a
    parenthesis follows it. -/
theorem SelectItem.append_inj {i j : SelectItem} {r₁ r₂ : List Char} (hi : i.IsPlain)
    (hj : j.IsPlain) (hr₁ : Following r₁) (hr₂ : Following r₂)
    (h : i.text.toList ++ r₁ = j.text.toList ++ r₂) : i = j ∧ r₁ = r₂ := by
  have hparen : ∀ l, NameEnd ('(' :: l) := .cons (by decide)
  have hclose : ∀ l, NameEnd (')' :: l) := .cons (by decide)
  -- No column is followed by a parenthesis.
  have hne : ∀ {r l : List Char}, Following r → r ≠ '(' :: l := by
    rintro r l hr rfl
    have := hr '(' rfl
    simp at this
  cases i with
  | column name =>
    cases j with
    | column name' =>
      obtain ⟨rfl, hr⟩ := IsPlainName.append_inj hi hj hr₁.nameEnd hr₂.nameEnd h
      exact ⟨rfl, hr⟩
    | aggregate function name' =>
      rw [toList_text_aggregate] at h
      obtain ⟨-, hr⟩ := IsPlainName.append_inj hi hj.1 hr₁.nameEnd (hparen _) h
      exact absurd hr (hne hr₁)
  | aggregate function name =>
    rw [toList_text_aggregate] at h
    cases j with
    | column name' =>
      obtain ⟨-, hr⟩ := IsPlainName.append_inj hi.1 hj (hparen _) hr₂.nameEnd h
      exact absurd hr.symm (hne hr₂)
    | aggregate function' name' =>
      rw [toList_text_aggregate] at h
      obtain ⟨rfl, hr⟩ := IsPlainName.append_inj hi.1 hj.1 (hparen _) (hparen _) h
      obtain ⟨rfl, hr⟩ := IsPlainName.append_inj hi.2 hj.2 (hclose _) (hclose _)
        (List.cons.inj hr).2
      obtain ⟨-, hr⟩ := IsPlainName.append_inj hi.2 hj.2 hr₁.nameEnd hr₂.nameEnd
        (List.append_cancel_left (List.cons.inj hr).2)
      exact ⟨rfl, hr⟩

theorem SelectItem.following_afterComma (i : SelectItem) (l : List Char) :
    Following (i.afterComma ++ l) := by
  intro c hc
  exact .inl (Option.some.inj hc).symm

theorem following_items (is : List SelectItem) (r : List Char) :
    Following (is.flatMap SelectItem.afterComma ++ ' ' :: r) := by
  cases is with
  | nil => exact fun c hc => .inr (Option.some.inj hc).symm
  | cons i is =>
    rw [List.flatMap_cons, List.append_assoc]
    exact i.following_afterComma _

/-- Items that each stand after a comma are read back before a blank. -/
theorem items_append_inj {is js : List SelectItem} {r₁ r₂ : List Char}
    (his : ∀ i ∈ is, i.IsPlain) (hjs : ∀ j ∈ js, j.IsPlain)
    (h : is.flatMap SelectItem.afterComma ++ ' ' :: r₁ =
      js.flatMap SelectItem.afterComma ++ ' ' :: r₂) : is = js ∧ r₁ = r₂ := by
  -- A comma comes before every item, a blank after the last.
  induction is generalizing js with
  | nil =>
    cases js with
    | nil => exact ⟨rfl, (List.cons.inj h).2⟩
    | cons j js => simp [SelectItem.afterComma] at h
  | cons i is ih =>
    cases js with
    | nil => simp [SelectItem.afterComma] at h
    | cons j js =>
      rw [List.flatMap_cons, List.flatMap_cons, List.append_assoc, List.append_assoc] at h
      obtain ⟨rfl, hrest⟩ := SelectItem.append_inj (his i List.mem_cons_self)
        (hjs j List.mem_cons_self) (following_items is r₁) (following_items js r₂)
        (List.cons.inj h).2
      obtain ⟨rfl, hr⟩ := ih (fun i hi => his i (List.mem_cons_of_mem _ hi))
        (fun j hj => hjs j (List.mem_cons_of_mem _ hj)) hrest
      exact ⟨rfl, hr⟩

/-! ### Reading the list -/

/-- The selected columns are columns of the entity or grouping columns. -/
theorem mem_projectionFields {e : Entity} {c : Clauses} {name : String}
    (h : name ∈ projectionFields e c) :
    (∃ column ∈ e.columns, column.name = name) ∨ name ∈ c.groupBy := by
  have havailable := projectionFields_subset_available h
  rw [available] at havailable
  split at havailable
  · obtain ⟨column, hcolumn, rfl⟩ := List.mem_map.1 havailable
    exact .inl ⟨column, e.perm_ordered.mem_iff.1 hcolumn, rfl⟩
  · exact .inr havailable

/-- The items of two statements are the same only if their columns, their sums and
    their counts are. -/
theorem selectItems_inj {e₁ e₂ : Entity} {c₁ c₂ : Clauses}
    (h : selectItems e₁ c₁ = selectItems e₂ c₂) :
    projectionFields e₁ c₁ = projectionFields e₂ c₂ ∧ c₁.sum = c₂.sum ∧ c₁.count = c₂.count := by
  refine ⟨?_, ?_, ?_⟩
  · simpa [selectItems, aggregateItems, SelectItem.column?, Function.comp_def] using
      congrArg (List.filterMap SelectItem.column?) h
  · simpa [selectItems, aggregateItems, SelectItem.argument?, Function.comp_def] using
      congrArg (List.filterMap (SelectItem.argument? "SUM")) h
  · simpa [selectItems, aggregateItems, SelectItem.argument?, Function.comp_def] using
      congrArg (List.filterMap (SelectItem.argument? "COUNT")) h

def selectList (e : Entity) (c : Clauses) : List Char :=
  (projectionText e c ++ aggregatesText c).toList

/-- Without columns the list starts with the comma of its first aggregate. -/
theorem selectList_of_fields_eq_nil {e : Entity} {c : Clauses} (h : projectionFields e c = []) :
    selectList e c = (selectItems e c).flatMap SelectItem.afterComma := by
  simp [selectList, projectionText, commaList, selectItems, h, toList_aggregatesText]

/-- With columns it is its items after commas, but for the first comma. -/
theorem comma_cons_selectList {e : Entity} {c : Clauses} (h : projectionFields e c ≠ []) :
    ',' :: selectList e c = (selectItems e c).flatMap SelectItem.afterComma := by
  rw [selectList, String.toList_append, projectionText, selectItems, List.flatMap_append,
    ← comma_cons_commaList h, toList_aggregatesText, List.cons_append]

/-- A list of columns starts with a character of a name. -/
theorem selectList_head {e : Entity} {c : Clauses} (h : projectionFields e c ≠ [])
    (hplain : ∀ name ∈ projectionFields e c, IsPlainName name) (r : List Char) :
    ¬Following (selectList e c ++ r) := by
  intro hfollowing
  obtain ⟨name, rest, hfields⟩ := List.exists_cons_of_ne_nil h
  have hname := hplain name (by rw [hfields]; exact List.mem_cons_self)
  obtain ⟨a, l, ha⟩ := List.exists_cons_of_ne_nil
    (fun hnil => hname.ne_empty (String.toList_inj.1 hnil) : name.toList ≠ [])
  have hlist := comma_cons_selectList h
  rw [selectItems, hfields, List.map_cons, List.cons_append, List.flatMap_cons,
    SelectItem.afterComma, SelectItem.text, ha] at hlist
  have hchar := hname.chars a (by rw [ha]; exact List.mem_cons_self)
  refine hfollowing.nameEnd a ?_ hchar
  rw [(List.cons.inj hlist).2]
  rfl

/-- The columns, the sums and the counts of a statement are plain names. -/
structure PlainItems (e : Entity) (c : Clauses) : Prop where
  fields : ∀ name ∈ projectionFields e c, IsPlainName name
  sum : ∀ name ∈ c.sum, IsPlainName name
  count : ∀ name ∈ c.count, IsPlainName name

theorem PlainItems.isPlain {e : Entity} {c : Clauses} (h : PlainItems e c) :
    ∀ i ∈ selectItems e c, i.IsPlain := by
  intro i hi
  simp only [selectItems, aggregateItems, List.mem_append, List.mem_map] at hi
  obtain ⟨name, hname, rfl⟩ | ⟨name, hname, rfl⟩ | ⟨name, hname, rfl⟩ := hi
  · exact h.fields name hname
  · exact ⟨⟨by decide, by decide⟩, h.sum name hname⟩
  · exact ⟨⟨by decide, by decide⟩, h.count name hname⟩

/-- A SELECT list before a blank determines its columns, its sums and its counts. -/
theorem selectList_append_inj {e₁ e₂ : Entity} {c₁ c₂ : Clauses} {r₁ r₂ : List Char}
    (h₁ : PlainItems e₁ c₁) (h₂ : PlainItems e₂ c₂)
    (h : selectList e₁ c₁ ++ ' ' :: r₁ = selectList e₂ c₂ ++ ' ' :: r₂) :
    (projectionFields e₁ c₁ = projectionFields e₂ c₂ ∧ c₁.sum = c₂.sum ∧
      c₁.count = c₂.count) ∧ r₁ = r₂ := by
  -- Without columns the list starts with a comma or is empty, with columns it does not.
  by_cases hf₁ : projectionFields e₁ c₁ = []
  · have hstart : Following (selectList e₁ c₁ ++ ' ' :: r₁) := by
      rw [selectList_of_fields_eq_nil hf₁]
      exact following_items _ _
    have hf₂ : projectionFields e₂ c₂ = [] := by
      by_contra hf₂
      exact selectList_head hf₂ h₂.fields _ (h ▸ hstart)
    rw [selectList_of_fields_eq_nil hf₁, selectList_of_fields_eq_nil hf₂] at h
    obtain ⟨hitems, hr⟩ := items_append_inj h₁.isPlain h₂.isPlain h
    exact ⟨selectItems_inj hitems, hr⟩
  · have hf₂ : projectionFields e₂ c₂ ≠ [] := by
      intro hf₂
      refine selectList_head hf₁ h₁.fields (' ' :: r₁) ?_
      rw [h, selectList_of_fields_eq_nil hf₂]
      exact following_items _ _
    have hcomma := congrArg (',' :: ·) h
    simp only [← List.cons_append] at hcomma
    rw [comma_cons_selectList hf₁, comma_cons_selectList hf₂] at hcomma
    obtain ⟨hitems, hr⟩ := items_append_inj h₁.isPlain h₂.isPlain hcomma
    exact ⟨selectItems_inj hitems, hr⟩

end SqlSelect
