import SqlSelect.Proofs.Predicate.Collections

/-!
# Items of a sequence

The literal of a sequence is read back by splitting it at its commas. Commas between
quotes belong to a text and do not count. As long as no text holds a quote, there is one
item for each scalar and an empty one for each empty sequence, from left to right, at any
depth.

## Main definitions

* `splitOutside` and `itemsOf`: the parts of a text between its commas outside of quotes;
* `Value.itemTexts`: the texts of scalars and of empty sequences in a value;
* `Value.Filled`: a value without empty sequences in it;
* `Expr.HasList`: the list that a membership test is written with.

## Main statements

* `splitOutside_append_comma`: a comma behind paired quotes ends an item;
* `Value.itemsOf_sql`: the items of a literal;
* `Value.filter_itemTexts`: the items that are not empty are the scalars;
* `Value.itemsOf_sql_eq_scalars_iff`: when there are no other items;
* `itemsOf_sequence`: the items of a sequence, and of the list of a membership test in it.
-/

namespace SqlSelect

/-! ### Splitting outside of quotes -/

/-- The parts of a text between its commas. A comma between an opening quote and the next
    quote is part of an item. The flag says whether a quote is open. -/
def splitOutside : Bool → List Char → List (List Char)
  | _, [] => [[]]
  | quoted, c :: rest =>
    if c = ',' ∧ quoted = false then [] :: splitOutside false rest
    else (splitOutside (if c = '\'' then !quoted else quoted) rest).modifyHead (c :: ·)

/-- The items of a text, between its commas outside of quotes. -/
def itemsOf (text : String) : List String :=
  (splitOutside false text.toList).map String.ofList

theorem splitOutside_comma (rest : List Char) :
    splitOutside false (',' :: rest) = [] :: splitOutside false rest := by
  simp [splitOutside]

theorem splitOutside_cons {c : Char} (hcomma : c ≠ ',') (hquote : c ≠ '\'') (rest : List Char) :
    splitOutside false (c :: rest) = (splitOutside false rest).modifyHead (c :: ·) := by
  simp [splitOutside, hcomma, hquote]

theorem splitOutside_ne_nil (quoted : Bool) (text : List Char) : splitOutside quoted text ≠ [] := by
  induction text generalizing quoted with
  | nil => simp [splitOutside]
  | cons c rest ih =>
    rw [splitOutside]
    split
    · exact List.cons_ne_nil _ _
    · rw [Ne, List.modifyHead_eq_nil_iff]
      exact ih _

/-- An open quote lasts until the next one, over all commas between them. -/
theorem splitOutside_true_append {s : List Char} (hs : '\'' ∉ s) (rest : List Char) :
    splitOutside true (s ++ '\'' :: rest) =
      (splitOutside false rest).modifyHead fun part => s ++ '\'' :: part := by
  induction s with
  | nil => simp [splitOutside]
  | cons c s ih =>
    rw [List.mem_cons, not_or] at hs
    simp only [List.cons_append, splitOutside, Bool.true_eq_false, and_false, if_false,
      if_neg (Ne.symm hs.1), ih hs.2, List.modifyHead_modifyHead]
    rfl

theorem splitOutside_quoted {s : List Char} (hs : '\'' ∉ s) (rest : List Char) :
    splitOutside false ('\'' :: (s ++ '\'' :: rest)) =
      (splitOutside false rest).modifyHead fun part => '\'' :: (s ++ '\'' :: part) := by
  have hquote : splitOutside false ('\'' :: (s ++ '\'' :: rest)) =
      (splitOutside true (s ++ '\'' :: rest)).modifyHead ('\'' :: ·) := by
    simp [splitOutside]
  rw [hquote, splitOutside_true_append hs, List.modifyHead_modifyHead]
  rfl

theorem modifyHead_append {f : List Char → List Char} {parts : List (List Char)} (h : parts ≠ [])
    (more : List (List Char)) : (parts ++ more).modifyHead f = parts.modifyHead f ++ more := by
  cases parts with
  | nil => exact absurd rfl h
  | cons part parts => rfl

/-- A comma behind paired quotes ends an item, and the items before it and behind it are
    those of the two texts. -/
theorem splitOutside_append_comma {l : List Char} (hl : Paired (· ≠ '\'') l) (r : List Char) :
    splitOutside false (l ++ ',' :: r) = splitOutside false l ++ splitOutside false r := by
  induction hl with
  | nil => exact splitOutside_comma r
  | @char c l hc _ ih =>
    rw [List.cons_append]
    by_cases hcomma : c = ','
    · rw [hcomma, splitOutside_comma, splitOutside_comma, ih]
      rfl
    · rw [splitOutside_cons hcomma hc, splitOutside_cons hcomma hc, ih,
        modifyHead_append (splitOutside_ne_nil false l)]
  | @quoted s l hs _ ih =>
    rw [List.cons_append, List.append_assoc, List.cons_append, splitOutside_quoted hs,
      splitOutside_quoted hs, ih, modifyHead_append (splitOutside_ne_nil false l)]

/-- Without commas outside of its quotes a text is one item. -/
theorem splitOutside_of_paired {l : List Char} (hl : Paired (fun c => c ≠ '\'' ∧ c ≠ ',') l) :
    splitOutside false l = [l] := by
  induction hl with
  | nil => rfl
  | char hc _ ih => rw [splitOutside_cons hc.2 hc.1, ih]; rfl
  | quoted hs _ ih => rw [splitOutside_quoted hs, ih]; rfl

/-! ### Items of literals -/

namespace Value

mutual

/-- The texts of the scalars in a value, and an empty text for each empty sequence in it,
    from left to right. -/
def itemTexts : Value → List String
  | .array items => itemTextsList items
  | v => [v.sql]

def itemTextsList : List Value → List String
  | [] => [""]
  | [v] => v.itemTexts
  | v :: w :: rest => v.itemTexts ++ itemTextsList (w :: rest)

end

/-- No sequence in the value is empty, nor is the value itself an empty sequence. -/
inductive Filled : Value → Prop
  | scalar {v : Value} (h : v.isSequence = false) : Filled v
  | array {items : List Value} (hne : items ≠ []) (h : ∀ v ∈ items, v.Filled) :
      Filled (.array items)

theorem paired_sql_outside {v : Value} (h : ∀ s ∈ v.texts, '\'' ∉ s.toList) :
    Paired (· ≠ '\'') v.sql.toList := by
  refine (v.paired_sql h).mono ?_
  rintro c hc rfl
  exact absurd hc (by decide)

/-- A scalar is one item, whatever commas are in its text. -/
theorem itemsOf_sql_of_scalar {v : Value} (hv : v.isSequence = false)
    (h : ∀ s ∈ v.texts, '\'' ∉ s.toList) : itemsOf v.sql = [v.sql] := by
  have hpaired : Paired (fun c => c ≠ '\'' ∧ c ≠ ',') v.sql.toList := by
    refine (paired_sql_of_scalar hv h).mono fun c hc => ?_
    exact ⟨Nesting.ne_of_class hc (by decide), Nesting.ne_of_class hc (by decide)⟩
  rw [itemsOf, splitOutside_of_paired hpaired, List.map_singleton, String.ofList_toList]

/-- The items of a first value, and of what follows it behind a comma. -/
theorem itemsOf_append_comma {v : Value} (h : ∀ s ∈ v.texts, '\'' ∉ s.toList) (rest : String) :
    itemsOf (v.sql ++ "," ++ rest) = itemsOf v.sql ++ itemsOf rest := by
  have hchars : (v.sql ++ "," ++ rest).toList = v.sql.toList ++ ',' :: rest.toList := by simp
  rw [itemsOf, hchars, splitOutside_append_comma (paired_sql_outside h), List.map_append]
  rfl

mutual

/-- Split at its commas outside of quotes, a literal gives the texts of its scalars and an
    empty text for each empty sequence. -/
theorem itemsOf_sql (v : Value) (h : ∀ s ∈ v.texts, '\'' ∉ s.toList) :
    itemsOf v.sql = v.itemTexts := by
  match v, h with
  | .array items, h => exact itemsOf_sqlList items h
  | .null, h | .bool _, h | .int _, h | .float _, h | .decimal _, h | .text _, h
  | .dateTime _, h => exact itemsOf_sql_of_scalar rfl h

theorem itemsOf_sqlList (items : List Value) (h : ∀ s ∈ textsList items, '\'' ∉ s.toList) :
    itemsOf (sqlList items) = itemTextsList items := by
  match items, h with
  | [], _ => rfl
  | [v], h => exact itemsOf_sql v fun s hs => h s (by simpa [textsList] using hs)
  | v :: w :: rest, h =>
    rw [textsList, List.forall_mem_append] at h
    rw [sqlList, itemsOf_append_comma h.1, itemsOf_sql v h.1, itemsOf_sqlList (w :: rest) h.2,
      itemTextsList]

end

/-! ### Items and scalars -/

theorem itemTexts_of_scalar {v : Value} (hv : v.isSequence = false) : v.itemTexts = [v.sql] := by
  cases v with
  | array items => cases hv
  | _ => rfl

theorem scalars_of_scalar {v : Value} (hv : v.isSequence = false) : v.scalars = [v] := by
  cases v with
  | array items => cases hv
  | _ => rfl

mutual

/-- The items that are not empty are the texts of the scalars. -/
theorem filter_itemTexts (v : Value) :
    v.itemTexts.filter (· ≠ "") = v.scalars.map sql := by
  cases hv : v with
  | array items => exact filter_itemTextsList items
  | _ =>
    rw [itemTexts_of_scalar rfl, scalars_of_scalar rfl]
    exact List.filter_cons_of_pos (decide_eq_true (sql_ne_empty_of_scalar rfl))

theorem filter_itemTextsList (items : List Value) :
    (itemTextsList items).filter (· ≠ "") = (scalarsList items).map sql := by
  match items with
  | [] => rfl
  | [v] => rw [itemTextsList, filter_itemTexts v, scalarsList, scalarsList, List.append_nil]
  | v :: w :: rest =>
    have hscalars : scalarsList (v :: w :: rest) = v.scalars ++ scalarsList (w :: rest) := rfl
    rw [itemTextsList, List.filter_append, filter_itemTexts v, filter_itemTextsList (w :: rest),
      hscalars, List.map_append]

end

mutual

/-- No item is empty exactly if no sequence is. -/
theorem filled_iff (v : Value) : v.Filled ↔ "" ∉ v.itemTexts := by
  cases hv : v with
  | array items =>
    have hitems : (array items).Filled ↔ items ≠ [] ∧ ∀ v ∈ items, v.Filled := by
      constructor
      · intro h
        cases h with
        | scalar h => cases h
        | array hne h => exact ⟨hne, h⟩
      · exact fun h => .array h.1 h.2
    exact hitems.trans (filledList_iff items)
  | _ =>
    refine iff_of_true (.scalar rfl) ?_
    rw [itemTexts_of_scalar rfl, List.mem_singleton]
    exact (sql_ne_empty_of_scalar rfl).symm

theorem filledList_iff (items : List Value) :
    (items ≠ [] ∧ ∀ v ∈ items, v.Filled) ↔ "" ∉ itemTextsList items := by
  match items with
  | [] => simp [itemTextsList]
  | [v] => simp [itemTextsList, filled_iff v]
  | v :: w :: rest =>
    have hrest := filledList_iff (w :: rest)
    rw [itemTextsList, List.mem_append, not_or, ← filled_iff v, ← hrest]
    simp

end

/-- The items of a literal are the texts of its scalars, from left to right, exactly if no
    sequence in the value is empty. -/
theorem itemsOf_sql_eq_scalars_iff {v : Value} (h : ∀ s ∈ v.texts, '\'' ∉ s.toList) :
    itemsOf v.sql = v.scalars.map sql ↔ v.Filled := by
  rw [itemsOf_sql v h, ← filter_itemTexts, filled_iff]
  constructor
  · intro hitems hempty
    rw [hitems] at hempty
    simp at hempty
  · intro hempty
    refine (List.filter_eq_self.2 fun item hitem => ?_).symm
    exact decide_eq_true fun hnil => hempty (hnil ▸ hitem)

/-- A value without empty sequences has a text. -/
theorem Filled.not_blank {v : Value} (h : v.Filled) : ¬v.Blank := by
  intro hblank
  induction hblank with
  | empty =>
    cases h with
    | scalar h => cases h
    | array hne _ => exact hne rfl
  | @single w _ ih =>
    cases h with
    | scalar h => cases h
    | array _ h => exact ih (h w List.mem_cons_self)

end Value

/-! ### Membership tests -/

namespace Expr

theorem gaps_isIn_of_filled {vs : List Value} (h : (Value.array vs).Filled) (item : Expr) :
    (item.isIn (.sequence vs)).gaps = item.gaps := by
  have hne : Value.sqlList vs ≠ "" := by
    intro hempty
    exact h.not_blank ((Value.sql_eq_empty_iff (.array vs)).1 hempty)
  rw [gaps_isIn_sequence, if_neg hne, List.nil_append]

/-- The list of a membership test, between the text of the item and the end, for the lenient
    text and for the strict one. -/
structure HasList (item : Expr) (vs : List Value) (list : String) : Prop where
  sql : (item.isIn (.sequence vs)).sql = "(" ++ item.sql ++ " IN (" ++ list ++ "))"
  strictSql : ∀ text, item.strictSql = .ok text →
    (item.isIn (.sequence vs)).strictSql = .ok ("(" ++ text ++ " IN (" ++ list ++ "))")

theorem hasList_of_filled {vs : List Value} (h : (Value.array vs).Filled) (item : Expr) :
    item.HasList vs (Value.array vs).sql where
  sql := by rw [isIn, sequence, sql_membership, sql_computed]
  strictSql text htext := by
    obtain ⟨hgaps, rfl⟩ := strictSql_eq_ok_iff.1 htext
    refine strictSql_eq_ok_iff.2 ⟨(gaps_isIn_of_filled h item).trans hgaps, ?_⟩
    rw [isIn, sequence, sql_membership, sql_computed]

end Expr

/-- The items of a sequence whose texts hold no quote are the texts of its scalars, from left
    to right and at any depth, exactly if neither it nor a sequence in it is empty. Then every
    membership test in it has a list with as many items as there are scalars. -/
theorem itemsOf_sequence {vs : List Value} (h : ∀ s ∈ (Value.array vs).texts, '\'' ∉ s.toList) :
    (itemsOf (Value.array vs).sql = (Value.array vs).scalars.map Value.sql ↔
        (Value.array vs).Filled) ∧
      ((Value.array vs).Filled → ∀ item : Expr, ∃ list, item.HasList vs list ∧
        (itemsOf list).length = (Value.array vs).scalars.length) := by
  have hitems := Value.itemsOf_sql_eq_scalars_iff h
  refine ⟨hitems, ?_⟩
  intro hfilled item
  refine ⟨(Value.array vs).sql, Expr.hasList_of_filled hfilled item, ?_⟩
  rw [hitems.2 hfilled, List.length_map]

/-- Texts with commas and an empty text, at different depths. -/
def nestedNames : List Value :=
  [.text "Miller, A.", .array [.null, .array [.array [.text ""], .int (-7)]], .text ",,"]

/-- The list of a membership test in five scalars has five items. -/
theorem itemsOf_sequence_nestedNames :
    (∀ s ∈ (Value.array nestedNames).texts, '\'' ∉ s.toList) ∧ (Value.array nestedNames).Filled ∧
      (Value.array nestedNames).sql = "'Miller, A.',NULL,'',-7,',,'" ∧
      itemsOf (Value.array nestedNames).sql = ["'Miller, A.'", "NULL", "''", "-7", "',,'"] ∧
      ∃ list, (Expr.field "Name").HasList nestedNames list ∧ (itemsOf list).length = 5 := by
  have htexts : ∀ s ∈ (Value.array nestedNames).texts, '\'' ∉ s.toList := by decide
  have hfilled : (Value.array nestedNames).Filled := by
    rw [Value.filled_iff]
    decide
  obtain ⟨hitems, hlist⟩ := itemsOf_sequence htexts
  exact ⟨htexts, hfilled, by decide, hitems.2 hfilled, hlist hfilled (.field "Name")⟩

end SqlSelect
