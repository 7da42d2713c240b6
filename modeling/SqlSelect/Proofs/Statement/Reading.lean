import Mathlib
import SqlSelect.Proofs.Predicate.Reading
import SqlSelect.Proofs.Statement.Rendering
import SqlSelect.Proofs.Statement.SelectList
import SqlSelect.Proofs.Statement.Spacing

/-!
# Reading statements back

The text of a statement with plain names determines its clauses, in either spacing.

## Main definitions

* `clause`: a keyword and what it introduces, or nothing;
* `Elsewhere`: a text that goes on without a given keyword;
* `Query.Legible`: queries with plain names and with texts that hold no quote.

## Main statements

* `spaced_clause_append_inj`: a clause that can be left out is read back before a
  text that goes on without its keyword;
* `Query.clauses_eq_of_renderLenient_eq`: two legible queries with one statement agree on all
  that the statement shows.

## Design notes

The statement is read from the left. The SELECT list and the table end at a blank.
Then each of WHERE, GROUP BY and ORDER BY is there if and only if its keyword
stands behind the next blank, and its body ends at the first blank outside of
parentheses and quotes.
-/

namespace SqlSelect

open Nesting

/-! ### Clauses -/

/-- A keyword and what it introduces, or nothing. -/
def clause (keyword body : String) : String :=
  if body = "" then "" else keyword ++ " " ++ body

@[simp] theorem clause_empty (keyword : String) : clause keyword "" = "" := rfl

theorem clause_of_ne_empty (keyword : String) {body : String} (h : body ≠ "") :
    clause keyword body = keyword ++ " " ++ body :=
  if_neg h

/-- The keywords behind which a body stands until the next blank. -/
def keywords : List String := ["FROM", "WHERE", "GROUP BY", "ORDER BY", "OFFSET"]

/-- Where one keyword stands, no other one does. -/
theorem keyword_not_prefix {k k' : String} (hk : k ∈ keywords) (hk' : k' ∈ keywords)
    (hne : k ≠ k') (l : List Char) : ¬k.toList <+: k'.toList ++ l := by
  have key : ∀ k ∈ keywords, ∀ k' ∈ keywords, k ≠ k' →
      ¬k.toList <+: k'.toList ∧ ¬k'.toList <+: k.toList := by decide
  obtain ⟨h₁, h₂⟩ := key k hk k' hk' hne
  intro h
  obtain h | h := List.prefix_or_prefix_of_prefix h (List.prefix_append _ _)
  · exact h₁ h
  · exact h₂ h

theorem keyword_not_prefix_blank {k : String} (hk : k ∈ keywords) (l : List Char) :
    ¬k.toList <+: ' ' :: l := by
  have key : ∀ k ∈ keywords, k.toList ≠ [] ∧ k.toList.head? ≠ some ' ' := by decide
  obtain ⟨hne, hhead⟩ := key k hk
  obtain ⟨a, l', ha⟩ := List.exists_cons_of_ne_nil hne
  rw [ha, List.cons_prefix_cons]
  rintro ⟨rfl, -⟩
  exact hhead (by rw [ha]; rfl)

/-- The text goes on behind a blank, and not with the keyword. -/
def Elsewhere (keyword : String) (r : List Char) : Prop :=
  ∃ l, r = ' ' :: l ∧ ¬keyword.toList <+: l

theorem Elsewhere.nameEnd {k : String} {r : List Char} (h : Elsewhere k r) : NameEnd r := by
  obtain ⟨l, rfl, -⟩ := h
  exact .cons (by decide) l

theorem Elsewhere.stopped {k : String} {r : List Char} (h : Elsewhere k r) :
    Stopped isSign r := by
  obtain ⟨l, rfl, -⟩ := h
  exact stopped_of_isSign (by decide) l

/-- Another keyword stands behind the blank. -/
theorem elsewhere_keyword {k k' : String} (hk : k ∈ keywords) (hk' : k' ∈ keywords)
    (hne : k ≠ k') (l : List Char) : Elsewhere k (' ' :: (k'.toList ++ l)) :=
  ⟨_, rfl, keyword_not_prefix hk hk' hne l⟩

/-- A clause without text is no keyword, with or without its blank. -/
theorem Elsewhere.spaced_empty {k : String} {r : List Char} (hk : k ∈ keywords)
    (legacySpacing : Bool) (h : Elsewhere k r) :
    Elsewhere k ((spaced legacySpacing "").toList ++ r) := by
  cases legacySpacing with
  | false => exact h
  | true =>
    obtain ⟨l, rfl, -⟩ := h
    exact ⟨' ' :: l, by simp, keyword_not_prefix_blank hk l⟩

theorem toList_spaced_clause (legacySpacing : Bool) (k : String) {body : String}
    (h : body ≠ "") (r : List Char) :
    (spaced legacySpacing (clause k body)).toList ++ r =
      ' ' :: (k.toList ++ (' ' :: (body.toList ++ r))) := by
  have hne : k ++ " " ++ body ≠ "" := by simp
  rw [clause_of_ne_empty k h, spaced_of_ne_empty legacySpacing hne]
  simp

/-- The keyword of a clause is not that of the clauses before it. -/
theorem Elsewhere.spaced_clause {k k' : String} {r : List Char} (hk : k ∈ keywords)
    (hk' : k' ∈ keywords) (hne : k ≠ k') (legacySpacing : Bool) (body : String)
    (h : Elsewhere k r) : Elsewhere k ((spaced legacySpacing (clause k' body)).toList ++ r) := by
  by_cases hbody : body = ""
  · rw [hbody, clause_empty]
    exact h.spaced_empty hk legacySpacing
  · rw [toList_spaced_clause legacySpacing k' hbody]
    exact elsewhere_keyword hk hk' hne _

/-- A clause that can be left out is read back before a text that goes on without
    its keyword. -/
theorem spaced_clause_append_inj {k b₁ b₂ : String} {r₁ r₂ : List Char} (legacySpacing : Bool)
    (hk : k ∈ keywords) (hb₁ : Operand isSign b₁.toList) (hb₂ : Operand isSign b₂.toList)
    (hr₁ : Elsewhere k r₁) (hr₂ : Elsewhere k r₂)
    (h : (spaced legacySpacing (clause k b₁)).toList ++ r₁ =
      (spaced legacySpacing (clause k b₂)).toList ++ r₂) : b₁ = b₂ ∧ r₁ = r₂ := by
  -- A clause with text shows its keyword, one without text does not.
  have hshown : ∀ {b : String} {r r' : List Char}, b ≠ "" → Elsewhere k r →
      (spaced legacySpacing (clause k b)).toList ++ r' ≠ (spaced legacySpacing "").toList ++ r := by
    intro b r r' hb hr heq
    obtain ⟨l, hl, hno⟩ := hr.spaced_empty hk legacySpacing
    rw [toList_spaced_clause legacySpacing k hb, hl] at heq
    rw [← (List.cons.inj heq).2] at hno
    exact hno (List.prefix_append _ _)
  by_cases h₁ : b₁ = ""
  · by_cases h₂ : b₂ = ""
    · rw [h₁, h₂] at h ⊢
      exact ⟨rfl, List.append_cancel_left h⟩
    · rw [h₁, clause_empty] at h
      exact absurd h.symm (hshown h₂ hr₁)
  · by_cases h₂ : b₂ = ""
    · rw [h₂, clause_empty] at h
      exact absurd h (hshown h₁ hr₂)
    · rw [toList_spaced_clause legacySpacing k h₁, toList_spaced_clause legacySpacing k h₂] at h
      have hbody := (List.cons.inj (List.append_cancel_left (List.cons.inj h).2)).2
      obtain ⟨hb, hr⟩ := hb₁.append_inj hb₂ hr₁.stopped hr₂.stopped hbody
      exact ⟨String.toList_inj.1 hb, hr⟩

/-! ### Lists of names -/

theorem char_of_mem_commaList {names : List String} (h : ∀ name ∈ names, IsPlainName name)
    {c : Char} (hc : c ∈ (commaList names).toList) : isNameChar c = true ∨ c = ',' := by
  by_cases hnil : names = []
  · rw [hnil] at hc
    exact absurd hc List.not_mem_nil
  · have hmem : c ∈ ',' :: (commaList names).toList := List.mem_cons_of_mem _ hc
    rw [comma_cons_commaList hnil, List.flatMap_map, List.mem_flatMap] at hmem
    obtain ⟨name, hname, hmem⟩ := hmem
    obtain rfl | hmem := List.mem_cons.1 hmem
    · exact .inr rfl
    · exact .inl ((h name hname).chars c hmem)

theorem operand_commaList {names : List String} (h : ∀ name ∈ names, IsPlainName name) :
    Operand isSign (commaList names).toList := by
  refine .of_forall fun c hc => ?_
  obtain hc | rfl := char_of_mem_commaList h hc
  · exact harmless_of_isNameChar hc
  · decide

theorem commaList_inj {a b : List String} (ha : ∀ name ∈ a, IsPlainName name)
    (hb : ∀ name ∈ b, IsPlainName name) (h : commaList a = commaList b) : a = b := by
  by_cases hnil : a = []
  · by_contra hne
    have hb' : b ≠ [] := fun hb' => hne (hnil.trans hb'.symm)
    rw [hnil] at h
    exact commaList_ne_empty (fun name hname => (hb name hname).ne_empty) hb' h.symm
  · have hb' : b ≠ [] := by
      rintro rfl
      exact commaList_ne_empty (fun name hname => (ha name hname).ne_empty) hnil h
    have hplain : ∀ {names : List String}, (∀ name ∈ names, IsPlainName name) →
        ∀ i ∈ names.map SelectItem.column, i.IsPlain := by
      intro names hnames i hi
      obtain ⟨name, hname, rfl⟩ := List.mem_map.1 hi
      exact hnames name hname
    have hitems : (a.map SelectItem.column).flatMap SelectItem.afterComma ++ [' '] =
        (b.map SelectItem.column).flatMap SelectItem.afterComma ++ [' '] := by
      rw [← comma_cons_commaList hnil, ← comma_cons_commaList hb', h]
    have hmap := (items_append_inj (hplain ha) (hplain hb) hitems).1
    exact List.map_injective_iff.2 (fun _ _ => SelectItem.column.inj) hmap

theorem listFragment_eq (keyword : String) {names : List String}
    (h : ∀ name ∈ names, IsPlainName name) :
    listFragment keyword names = clause keyword (commaList names) := by
  by_cases hnil : names = []
  · rw [hnil]
    rfl
  · have hlist := commaList_ne_empty (fun name hname => (h name hname).ne_empty) hnil
    rw [listFragment, if_neg hnil, clause_of_ne_empty keyword hlist]

/-! ### Pages -/

theorem isPlainName_toString (n : Nat) : IsPlainName (toString n) where
  ne_empty h := Digits.ofNat_ne_nil n (by rw [← Digits.toList_toString, h]; rfl)
  chars c hc := by
    rw [Digits.toList_toString] at hc
    have hdigit := Digits.isDigit_of_mem_ofNat hc
    simp [isNameChar, Char.isAlphanum, hdigit]

theorem toString_toNat_inj {a b : UInt64} (h : toString a.toNat = toString b.toNat) : a = b := by
  have hdigits := congrArg String.toList h
  rw [Digits.toList_toString, Digits.toList_toString] at hdigits
  have hvalue := congrArg Digits.value hdigits
  rw [Digits.value_ofNat, Digits.value_ofNat] at hvalue
  exact UInt64.toNat_inj.1 hvalue

def pageText (c : Clauses) : List Char :=
  (" " ++ offsetFragment c ++ (" " ++ limitFragment c)).toList

theorem elsewhere_pageText {k : String} (hk : k ∈ keywords) (hne : k ≠ "OFFSET") (c : Clauses) :
    Elsewhere k (pageText c) := by
  have h := elsewhere_keyword hk (by decide) hne
    (' ' :: ((toString c.offset.toNat).toList ++ (" " ++ limitFragment c).toList))
  simpa [pageText, offsetFragment] using h

theorem pageText_inj {c₁ c₂ : Clauses} (h : pageText c₁ = pageText c₂) :
    c₁.offset = c₂.offset ∧ c₁.limit = c₂.limit := by
  have hform : ∀ c : Clauses, pageText c = " OFFSET ".toList ++
      ((toString c.offset.toNat).toList ++ (" LIMIT ".toList ++
        (toString c.limit.toNat).toList)) := by
    intro c
    simp [pageText, offsetFragment, limitFragment]
  have hend : ∀ l, NameEnd (" LIMIT ".toList ++ l) := fun l => .cons (by decide) _
  rw [hform, hform] at h
  obtain ⟨hoffset, hrest⟩ := IsPlainName.append_inj (isPlainName_toString _)
    (isPlainName_toString _) (hend _) (hend _) (List.append_cancel_left h)
  have hlimit := String.toList_inj.1 (List.append_cancel_left hrest)
  exact ⟨toString_toNat_inj hoffset, toString_toNat_inj hlimit⟩

/-! ### Clauses that can be left out -/

section

variable (legacySpacing : Bool) (c : Clauses)

/-- The statement from ORDER BY on. -/
def orderByOn : List Char :=
  (spaced legacySpacing (clause "ORDER BY" (commaList c.orderBy))).toList ++ pageText c

/-- The statement from GROUP BY on. -/
def groupByOn : List Char :=
  (spaced legacySpacing (clause "GROUP BY" (commaList c.groupBy))).toList ++
    orderByOn legacySpacing c

/-- The statement from WHERE on. -/
def whereOn : List Char :=
  (spaced legacySpacing (clause "WHERE" c.predicateText)).toList ++ groupByOn legacySpacing c

variable {k : String}

theorem elsewhere_orderByOn (hk : k ∈ keywords) (hoffset : k ≠ "OFFSET")
    (horder : k ≠ "ORDER BY") : Elsewhere k (orderByOn legacySpacing c) :=
  (elsewhere_pageText hk hoffset c).spaced_clause hk (by decide) horder legacySpacing _

theorem elsewhere_groupByOn (hk : k ∈ keywords) (hoffset : k ≠ "OFFSET")
    (horder : k ≠ "ORDER BY") (hgroup : k ≠ "GROUP BY") :
    Elsewhere k (groupByOn legacySpacing c) :=
  (elsewhere_orderByOn legacySpacing c hk hoffset horder).spaced_clause hk (by decide) hgroup
    legacySpacing _

theorem elsewhere_whereOn (hk : k ∈ keywords) (hoffset : k ≠ "OFFSET")
    (horder : k ≠ "ORDER BY") (hgroup : k ≠ "GROUP BY") (hwhere : k ≠ "WHERE") :
    Elsewhere k (whereOn legacySpacing c) :=
  (elsewhere_groupByOn legacySpacing c hk hoffset horder hgroup).spaced_clause hk (by decide)
    hwhere legacySpacing _

end

/-! ### Statements -/

theorem Clauses.conditionText_eq (c : Clauses) :
    c.conditionText = clause "WHERE" c.predicateText := rfl

namespace Query

/-- A query with plain names whose texts hold no quote. Names in its condition may be
    empty, and nothing is asked of requested names, since only available ones show. -/
structure Legible (q : Query) : Prop where
  table : IsPlainName q.entity.table
  columns : ∀ column ∈ q.entity.columns, IsPlainName column.name
  sum : ∀ name ∈ q.clauses.sum, IsPlainName name
  count : ∀ name ∈ q.clauses.count, IsPlainName name
  names : ∀ p ∈ q.clauses.predicate, ∀ name ∈ p.fieldNames, IsWord name
  texts : ∀ p ∈ q.clauses.predicate, ∀ s ∈ p.texts, '\'' ∉ s.toList
  groupBy : ∀ name ∈ q.clauses.groupBy, IsPlainName name
  orderBy : ∀ name ∈ q.clauses.orderBy, IsPlainName name

namespace Legible

variable {q : Query}

theorem plainItems (h : q.Legible) : PlainItems q.entity q.clauses where
  fields name hname := by
    obtain ⟨column, hcolumn, rfl⟩ | hgroup := mem_projectionFields hname
    · exact h.columns column hcolumn
    · exact h.groupBy name hgroup
  sum := h.sum
  count := h.count

theorem operand_predicateText (h : q.Legible) :
    Operand isSign q.clauses.predicateText.toList := by
  cases hp : q.clauses.predicate with
  | none =>
    rw [Clauses.predicateText_of_eq_none hp]
    exact .nil
  | some p =>
    rw [Clauses.predicateText_of_eq_some hp]
    refine Expr.operand_sql (fun c hc => isSign_of_isScalarChar hc) (by decide) ?_ (h.texts p hp)
    intro name hname c hc
    exact harmless_of_isNameChar (h.names p hp name hname c hc)

/-- The statement of a legible query, from the left. -/
theorem toList_renderLenient (h : q.Legible) (legacySpacing : Bool) :
    (q.renderLenient legacySpacing).toList =
      "SELECT ".toList ++ (selectList q.entity q.clauses ++ ' ' :: ("FROM ".toList ++
        (q.entity.table.toList ++ whereOn legacySpacing q.clauses))) := by
  rw [renderLenient_eq, joinFragments_fragments, Clauses.conditionText_eq, groupByFragment,
    orderByFragment, listFragment_eq _ h.groupBy, listFragment_eq _ h.orderBy]
  simp [selectFragment, selectList, fromFragment, pageText, whereOn, groupByOn, orderByOn]

end Legible

/-- The statement of a legible query determines what it selects, from where, under
    which condition, in which groups and order, and which page. -/
theorem clauses_eq_of_renderLenient_eq {p q : Query} (hp : p.Legible) (hq : q.Legible)
    {legacySpacing : Bool}
    (h : p.renderLenient legacySpacing = q.renderLenient legacySpacing) :
    p.entity.table = q.entity.table ∧
      projectionFields p.entity p.clauses = projectionFields q.entity q.clauses ∧
      p.clauses.sum = q.clauses.sum ∧ p.clauses.count = q.clauses.count ∧
      p.clauses.predicateText = q.clauses.predicateText ∧
      p.clauses.groupBy = q.clauses.groupBy ∧ p.clauses.orderBy = q.clauses.orderBy ∧
      p.clauses.offset = q.clauses.offset ∧ p.clauses.limit = q.clauses.limit := by
  have htext := congrArg String.toList h
  rw [hp.toList_renderLenient, hq.toList_renderLenient] at htext
  obtain ⟨⟨hfields, hsum, hcount⟩, hfrom⟩ := selectList_append_inj hp.plainItems hq.plainItems
    (List.append_cancel_left htext)
  -- The table ends at the blank of the first clause that is there.
  have htableEnd : ∀ c : Clauses, Elsewhere "FROM" (whereOn legacySpacing c) := fun c =>
    elsewhere_whereOn legacySpacing c (by decide) (by decide) (by decide) (by decide) (by decide)
  obtain ⟨htable, hwhere⟩ := IsPlainName.append_inj hp.table hq.table
    (htableEnd _).nameEnd (htableEnd _).nameEnd (List.append_cancel_left hfrom)
  -- Each clause that can be left out is read before a text without its keyword.
  have hwhereEnd : ∀ c : Clauses, Elsewhere "WHERE" (groupByOn legacySpacing c) := fun c =>
    elsewhere_groupByOn legacySpacing c (by decide) (by decide) (by decide) (by decide)
  obtain ⟨hpredicate, hgroup⟩ := spaced_clause_append_inj legacySpacing (by decide)
    hp.operand_predicateText hq.operand_predicateText (hwhereEnd _) (hwhereEnd _) hwhere
  have hgroupEnd : ∀ c : Clauses, Elsewhere "GROUP BY" (orderByOn legacySpacing c) := fun c =>
    elsewhere_orderByOn legacySpacing c (by decide) (by decide) (by decide)
  obtain ⟨hgroupBy, horder⟩ := spaced_clause_append_inj legacySpacing (by decide)
    (operand_commaList hp.groupBy) (operand_commaList hq.groupBy) (hgroupEnd _) (hgroupEnd _)
    hgroup
  have horderEnd : ∀ c : Clauses, Elsewhere "ORDER BY" (pageText c) := fun c =>
    elsewhere_pageText (by decide) (by decide) c
  obtain ⟨horderBy, hpage⟩ := spaced_clause_append_inj legacySpacing (by decide)
    (operand_commaList hp.orderBy) (operand_commaList hq.orderBy) (horderEnd _) (horderEnd _)
    horder
  obtain ⟨hoffset, hlimit⟩ := pageText_inj hpage
  exact ⟨htable, hfields, hsum, hcount, hpredicate,
    commaList_inj hp.groupBy hq.groupBy hgroupBy, commaList_inj hp.orderBy hq.orderBy horderBy,
    hoffset, hlimit⟩

/-- A table and columns that are named like keywords. -/
def keywordNames (condition : Expr) (requested : List String) : Query where
  entity := ⟨"FROM", [⟨"WHERE", 1, true⟩, ⟨"AS", 2, false⟩]⟩
  clauses := { predicate := some condition, projection := requested, orderBy := ["OFFSET"],
               sum := ["AS"], limit := 10 }

/-- An operator and a name without text, beside a text that looks like a clause. -/
def wrappedCondition : Expr :=
  .lambda (.binary .add (.field "") (.literal (.text ") GROUP BY (x")))

/-- The same text from other nodes. -/
def bareCondition : Expr :=
  .binary .coalesce (.foreign "Block") (.computed (.text ") GROUP BY (x"))

/-- Two queries that share a statement although their trees and requests differ. -/
theorem clauses_eq_of_renderLenient_eq_keywordNames :
    (keywordNames wrappedCondition []).Legible ∧ (keywordNames bareCondition ["x"]).Legible ∧
      (keywordNames wrappedCondition []).renderLenient true =
        (keywordNames bareCondition ["x"]).renderLenient true ∧
      (keywordNames wrappedCondition []).clauses.predicateText =
        (keywordNames bareCondition ["x"]).clauses.predicateText := by
  have hp : (keywordNames wrappedCondition []).Legible :=
    ⟨by decide, by decide, by decide, by decide, by decide, by decide, by decide, by decide⟩
  have hq : (keywordNames bareCondition ["x"]).Legible :=
    ⟨by decide, by decide, by decide, by decide, by decide, by decide, by decide, by decide⟩
  have h : (keywordNames wrappedCondition []).renderLenient true =
      (keywordNames bareCondition ["x"]).renderLenient true := by cbv
  obtain ⟨-, -, -, -, hpredicate, -⟩ := clauses_eq_of_renderLenient_eq hp hq h
  exact ⟨hp, hq, h, hpredicate⟩

end Query

end SqlSelect
