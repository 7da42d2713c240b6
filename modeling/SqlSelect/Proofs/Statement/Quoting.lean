import SqlSelect.Proofs.Predicate.Texts
import SqlSelect.Proofs.Statement.Building
import SqlSelect.Proofs.Statement.Options
import SqlSelect.Proofs.Statement.SelectList
import SqlSelect.Proofs.Statement.Spacing

/-!
# Texts inside a statement

The texts of a condition are written between quotes as they are. As long as neither they
nor any name holds a quote, they have no influence outside of their quotes: two queries
that differ in texts alone are refused for the same reason, or their statements are the
same outside of quotes.

## Main definitions

* `Query.withoutTexts`: the query with every text of its condition emptied;
* `Query.WithoutQuotes`: no name and no text of the query holds a quote.

## Main statements

* `RenderOptions.refusal_withoutTexts`: texts have no part in refusals;
* `Query.sameOutside_renderLenient`: nor in the statement outside of quotes;
* `Query.render_unquoted_congr`: queries that differ in texts alone.
-/

namespace SqlSelect

/-! ### Fragments -/

theorem quoteFree_commaList {names : List String} (h : ∀ name ∈ names, QuoteFree name) :
    QuoteFree (commaList names) :=
  quoteFree_intercalate (by decide) h

theorem quoteFree_listFragment {keyword : String} {names : List String} (hk : QuoteFree keyword)
    (h : ∀ name ∈ names, QuoteFree name) : QuoteFree (listFragment keyword names) := by
  rw [listFragment]
  split
  · decide
  · rw [quoteFree_append, quoteFree_append]
    exact ⟨⟨hk, by decide⟩, quoteFree_commaList h⟩

theorem quoteFree_aggregateText {function name : String} (hf : QuoteFree function)
    (h : QuoteFree name) : QuoteFree (aggregateText function name) := by
  have hopen : QuoteFree "(" := by decide
  have hclose : QuoteFree ") AS " := by decide
  simp [aggregateText, hf, h, hopen, hclose]

theorem quoteFree_aggregatesText {c : Clauses} (hsum : ∀ name ∈ c.sum, QuoteFree name)
    (hcount : ∀ name ∈ c.count, QuoteFree name) : QuoteFree (aggregatesText c) := by
  have hcomma : ∀ text, QuoteFree text → QuoteFree ("," ++ text) := fun text h =>
    quoteFree_append.2 ⟨by decide, h⟩
  refine quoteFree_join fun part hpart => ?_
  obtain ⟨text, htext, rfl⟩ := List.mem_map.1 hpart
  refine hcomma text ?_
  obtain htext | htext := List.mem_append.1 htext
  · obtain ⟨name, hname, rfl⟩ := List.mem_map.1 htext
    exact quoteFree_aggregateText (by decide) (hsum name hname)
  · obtain ⟨name, hname, rfl⟩ := List.mem_map.1 htext
    exact quoteFree_aggregateText (by decide) (hcount name hname)

theorem quoteFree_spaced (legacySpacing : Bool) {f : String} (h : QuoteFree f) :
    QuoteFree (spaced legacySpacing f) := by
  rw [spaced]
  split
  · decide
  · exact quoteFree_append.2 ⟨by decide, h⟩

/-- Texts that are the same outside of quotes have their blanks in the same places. -/
theorem SameOutside.spaced (legacySpacing : Bool) {f g : String}
    (h : SameOutside f.toList g.toList) :
    SameOutside (spaced legacySpacing f).toList (spaced legacySpacing g).toList := by
  by_cases hf : f = ""
  · rw [hf, h.eq_empty_iff.1 hf]
    exact .of_quoteFree (quoteFree_spaced legacySpacing (by decide))
  · rw [spaced_of_ne_empty _ hf, spaced_of_ne_empty _ (mt h.eq_empty_iff.2 hf),
      String.toList_append, String.toList_append]
    exact (SameOutside.of_quoteFree (by decide)).append h

theorem quoteFree_toString (n : Nat) : QuoteFree (toString n) := by
  rw [QuoteFree, Digits.toList_toString]
  intro h
  exact absurd (Digits.isDigit_of_mem_ofNat h) (by decide)

/-! ### Queries without their texts -/

/-- The clauses with each text of the condition emptied. -/
def Clauses.withoutTexts (c : Clauses) : Clauses :=
  { c with predicate := c.predicate.map Expr.withoutTexts }

theorem Clauses.gaps_withoutTexts (c : Clauses) : c.withoutTexts.gaps = c.gaps := by
  obtain ⟨predicate⟩ := c
  cases predicate with
  | none => rfl
  | some p => exact p.gaps_withoutTexts

namespace Query

/-- The query with each text of its condition emptied. -/
def withoutTexts (q : Query) : Query := { q with clauses := q.clauses.withoutTexts }

/-- No name and no text of the query holds a quote. -/
structure WithoutQuotes (q : Query) : Prop where
  table : QuoteFree q.entity.table
  columns : ∀ column ∈ q.entity.columns, QuoteFree column.name
  lists : ∀ list, ∀ name ∈ q.clauses.nameList list, QuoteFree name
  fieldNames : ∀ p ∈ q.clauses.predicate, ∀ name ∈ p.fieldNames, QuoteFree name
  texts : ∀ p ∈ q.clauses.predicate, ∀ s ∈ p.texts, QuoteFree s

end Query

/-- Texts have no part in refusals. -/
theorem RenderOptions.refusal_withoutTexts (o : RenderOptions) (q : Query) :
    o.refusal q.withoutTexts = o.refusal q := by
  have hmissing : o.MissesFilter q.withoutTexts ↔ o.MissesFilter q := by
    simp [MissesFilter, Query.withoutTexts, Clauses.withoutTexts]
  have hgaps : q.withoutTexts.clauses.gaps = q.clauses.gaps := q.clauses.gaps_withoutTexts
  simp only [refusal, hmissing, hgaps]
  rfl

namespace Query

variable {q q' : Query}

theorem WithoutQuotes.quoteFree_selectFragment (h : q.WithoutQuotes) :
    QuoteFree (selectFragment q.entity q.clauses) := by
  have hfields : ∀ name ∈ projectionFields q.entity q.clauses, QuoteFree name := by
    intro name hname
    obtain ⟨column, hcolumn, rfl⟩ | hgroup := mem_projectionFields hname
    · exact h.columns column hcolumn
    · exact h.lists .groupBy name hgroup
  rw [selectFragment, quoteFree_append, quoteFree_append]
  exact ⟨⟨by decide, quoteFree_commaList hfields⟩,
    quoteFree_aggregatesText (h.lists .sum) (h.lists .count)⟩

/-- The WHERE fragment is that of the emptied condition outside of quotes. -/
theorem WithoutQuotes.sameOutside_conditionText (h : q.WithoutQuotes) :
    SameOutside q.clauses.conditionText.toList q.withoutTexts.clauses.conditionText.toList := by
  have htext : SameOutside q.clauses.predicateText.toList
      q.withoutTexts.clauses.predicateText.toList := by
    cases hp : q.clauses.predicate with
    | none =>
      simp [withoutTexts, Clauses.withoutTexts, Clauses.predicateText, hp, SameOutside.nil]
    | some p =>
      simpa [withoutTexts, Clauses.withoutTexts, Clauses.predicateText, hp] using
        Expr.sameOutside_sql (h.fieldNames p hp) (h.texts p hp)
  rw [Clauses.conditionText, Clauses.conditionText]
  by_cases hempty : q.clauses.predicateText = ""
  · rw [if_pos hempty, if_pos (htext.eq_empty_iff.1 hempty)]
    exact .nil
  · rw [if_neg hempty, if_neg (mt htext.eq_empty_iff.2 hempty), String.toList_append,
      String.toList_append]
    exact (SameOutside.of_quoteFree (by decide)).append htext

/-- The statement is that of the emptied query outside of quotes. -/
theorem WithoutQuotes.sameOutside_renderLenient (h : q.WithoutQuotes) (legacySpacing : Bool) :
    SameOutside (q.renderLenient legacySpacing).toList
      (q.withoutTexts.renderLenient legacySpacing).toList := by
  have of_quoteFree : ∀ {f : String}, QuoteFree f → SameOutside f.toList f.toList :=
    SameOutside.of_quoteFree
  have hspaced : ∀ {f : String}, QuoteFree f → QuoteFree (spaced legacySpacing f) :=
    quoteFree_spaced legacySpacing
  have hselect := h.quoteFree_selectFragment
  have hfrom : QuoteFree (fromFragment q.entity) := quoteFree_append.2 ⟨by decide, h.table⟩
  have hgroup : QuoteFree (groupByFragment q.clauses) :=
    quoteFree_listFragment (by decide) (h.lists .groupBy)
  have horder : QuoteFree (orderByFragment q.clauses) :=
    quoteFree_listFragment (by decide) (h.lists .orderBy)
  have hoffset : QuoteFree (offsetFragment q.clauses) :=
    quoteFree_append.2 ⟨by decide, quoteFree_toString _⟩
  have hlimit : QuoteFree (limitFragment q.clauses) :=
    quoteFree_append.2 ⟨by decide, quoteFree_toString _⟩
  have hcondition := h.sameOutside_conditionText.spaced legacySpacing
  -- All other fragments are those of `q` itself.
  rw [renderLenient_eq, renderLenient_eq, joinFragments_fragments, joinFragments_fragments]
  simp only [String.toList_append]
  exact (of_quoteFree hselect).append (((of_quoteFree (by decide)).append
    (of_quoteFree hfrom)).append (hcondition.append ((of_quoteFree (hspaced hgroup)).append
      ((of_quoteFree (hspaced horder)).append (((of_quoteFree (by decide)).append
        (of_quoteFree hoffset)).append ((of_quoteFree (by decide)).append
          (of_quoteFree hlimit)))))))

theorem WithoutQuotes.render_withoutTexts (h : q.WithoutQuotes) (o : RenderOptions) :
    (q.render o).map unquoted = (q.withoutTexts.render o).map unquoted := by
  rw [render_eq_refusal, render_eq_refusal, o.refusal_withoutTexts]
  cases o.refusal q with
  | some x => rfl
  | none => exact congrArg Except.ok (h.sameOutside_renderLenient o.legacySpacing).unquoted_eq

/-- Two queries that differ in texts alone, none of which holds a quote, are refused for the
    same reason, or their statements are the same once everything between quotes is
    deleted. -/
theorem render_unquoted_congr (h : q.withoutTexts = q'.withoutTexts) (hq : q.WithoutQuotes)
    (hq' : q'.WithoutQuotes) (o : RenderOptions) :
    (q.render o).map unquoted = (q'.render o).map unquoted := by
  rw [hq.render_withoutTexts, h, ← hq'.render_withoutTexts]

/-- The notes whose body is one of three texts, two of them items of a sequence. -/
def notesWith (first second third : String) : Query where
  entity := { table := "Notes", columns := [{ name := "Id" }, { name := "Body" }] }
  clauses :=
    { predicate := some (((Expr.field "Body").eq (.literal (.text first))).or
        ((Expr.field "Body").isIn (.computed (.array [.text second, .text third])))) }

/-- Texts that look like SQL in the place of others. -/
theorem render_unquoted_congr_notesWith :
    (notesWith ") OR (" "" "a, b").withoutTexts = (notesWith "" "AND" "").withoutTexts ∧
      (notesWith ") OR (" "" "a, b").WithoutQuotes ∧ (notesWith "" "AND" "").WithoutQuotes ∧
      ((notesWith ") OR (" "" "a, b").render { strict := true }).map unquoted =
        ((notesWith "" "AND" "").render { strict := true }).map unquoted := by
  have hsame : (notesWith ") OR (" "" "a, b").withoutTexts =
      (notesWith "" "AND" "").withoutTexts := rfl
  have hfirst : (notesWith ") OR (" "" "a, b").WithoutQuotes :=
    ⟨by decide, by decide, fun list => by cases list <;> decide, by decide, by decide⟩
  have hsecond : (notesWith "" "AND" "").WithoutQuotes :=
    ⟨by decide, by decide, fun list => by cases list <;> decide, by decide, by decide⟩
  exact ⟨hsame, hfirst, hsecond, render_unquoted_congr hsame hfirst hsecond { strict := true }⟩

end Query

end SqlSelect
