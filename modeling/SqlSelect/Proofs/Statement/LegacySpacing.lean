import SqlSelect.Proofs.Predicate.Skeleton
import SqlSelect.Proofs.Statement.Building
import SqlSelect.Proofs.Statement.Options
import SqlSelect.Proofs.Statement.SelectList
import SqlSelect.Proofs.Statement.Spacing
import SqlSelect.Proofs.Text.Runs

/-!
# The older spacing

With the older spacing a statement keeps the blanks of its empty fragments, and nothing
else is different. As long as the names are in one piece, blanks are side by side there
alone: the fragments are phrases, and so is a statement with the newer spacing. Then the
older one is made the newer one by making every run of blanks one blank.

## Main definitions

* `Solid`: a text without blanks and quotes;
* `Clauses.absent`: how many clauses leave an empty fragment;
* `Query.InOnePiece`: the names of the query are solid and its texts have no quotes;
* `Query.OlderSpacing`: how the two statements of a query differ.

## Main statements

* `Expr.optionalPhrase_sql`: the text of a tree is a phrase, if it has one;
* `length_joinFragments` and `collapse_joinFragments`: what the older spacing adds;
* `Query.render_both_spacings`: the two spacings of a query.
-/

namespace SqlSelect

/-! ### Conditions -/

/-- A text that has neither blanks nor quotes. -/
def Solid (text : String) : Prop := ∀ c ∈ text.toList, c ≠ ' ' ∧ c ≠ '\''

instance (text : String) : Decidable (Solid text) :=
  decidable_of_iff (text.toList.all (fun c => c ≠ ' ' ∧ c ≠ '\'') = true)
    List.all_iff_forall_prop

theorem Solid.optionalPhrase {text : String} (h : Solid text) : OptionalPhrase text.toList :=
  .of_paired (.of_forall h)

theorem Solid.phrase {text : String} (h : Solid text) (hne : text ≠ "") : Phrase text.toList :=
  h.optionalPhrase.phrase hne

theorem Value.optionalPhrase_sql {v : Value} (h : ∀ s ∈ v.texts, '\'' ∉ s.toList) :
    OptionalPhrase v.sql.toList := by
  refine .of_paired ((v.paired_sql h).mono ?_)
  rintro c (hc | rfl)
  · exact ⟨Nesting.ne_of_class hc (by decide), Nesting.ne_of_class hc (by decide)⟩
  · decide

/-- A token with blanks stands between two other texts. -/
theorem Operator.phrase_token (op : Operator) {l r : List Char} (hl : Phrase l) (hr : Phrase r) :
    Phrase (l ++ (op.token?.getD "").toList ++ r) := by
  have hsolid : ∀ {token : String}, Solid token → Phrase (l ++ token.toList ++ r) :=
    fun htoken => (hl.append_optional htoken.optionalPhrase).append hr
  have hword : ∀ word : String, Solid word → word ≠ "" →
      Phrase (l ++ (' ' :: (word.toList ++ [' '])) ++ r) := by
    intro word hword hne
    have hphrase := hl.blank ((hword.phrase hne).blank hr)
    simpa using hphrase
  cases op with
  | and | andAlso => exact hword "AND" (by decide) (by decide)
  | or | orElse => exact hword "OR" (by decide) (by decide)
  | _ => exact hsolid (by decide)

namespace Expr

/-- The text of a tree is a phrase, whatever is missing in it: blanks belong to tokens, and
    every token stands between parentheses. -/
theorem optionalPhrase_sql {e : Expr} (hnames : ∀ name ∈ e.fieldNames, Solid name)
    (htexts : ∀ s ∈ e.texts, '\'' ∉ s.toList) : OptionalPhrase e.sql.toList := by
  have hopen : Phrase ['('] := .of_char (by decide) (by decide)
  have hclose : Phrase [')'] := .of_char (by decide) (by decide)
  induction e with
  | literal v =>
    rw [sql_literal]
    exact v.optionalPhrase_sql fun s hs => htexts s (by simpa [texts, values] using hs)
  | computed v =>
    rw [sql_computed]
    exact v.optionalPhrase_sql fun s hs => htexts s (by simpa [texts, values] using hs)
  | field name =>
    rw [sql_field]
    exact (hnames name List.mem_cons_self).optionalPhrase
  | unary e ih => exact ih hnames htexts
  | lambda e ih => exact ih hnames htexts
  | binary op left right ihl ihr =>
    rw [fieldNames, List.forall_mem_append] at hnames
    rw [texts_binary, List.forall_mem_append] at htexts
    have hleft := hopen.append_optional (ihl hnames.1 htexts.1)
    have hright := (ihr hnames.2 htexts.2).append_phrase hclose
    have hnode := op.phrase_token hleft hright
    refine .inr ?_
    simpa [sql_binary] using hnode
  | membership item collection ihi ihc =>
    rw [fieldNames, List.forall_mem_append] at hnames
    rw [texts_membership, List.forall_mem_append] at htexts
    have hitem := hopen.append_optional (ihi hnames.1 htexts.1)
    have hlist := (hopen.append_optional (ihc hnames.2 htexts.2)).append (hclose.append hclose)
    have hin : Phrase "IN".toList := Solid.phrase (by decide) (by decide)
    have hnode := hitem.blank (hin.blank hlist)
    refine .inr ?_
    simpa [sql_membership] using hnode
  | emptyLambda => exact .inl rfl
  | foreign kind => exact .inl rfl

end Expr

/-! ### Fragments -/

theorem solid_append {a b : String} (ha : Solid a) (hb : Solid b) : Solid (a ++ b) := by
  intro c hc
  rw [String.toList_append, List.mem_append] at hc
  exact hc.elim (ha c) (hb c)

/-- A keyword, a blank and a phrase. -/
theorem phrase_keyword (keyword : String) {body : String} (hk : Solid keyword ∧ keyword ≠ "")
    (hbody : Phrase body.toList) : Phrase (keyword ++ " " ++ body).toList := by
  have hphrase := (hk.1.phrase hk.2).blank hbody
  simpa using hphrase

theorem solid_commaList {names : List String} (h : ∀ name ∈ names, Solid name) :
    Solid (commaList names) := by
  intro c hc
  by_cases hnil : names = []
  · rw [hnil] at hc
    exact absurd hc List.not_mem_nil
  · have hmem : c ∈ ',' :: (commaList names).toList := List.mem_cons_of_mem _ hc
    rw [comma_cons_commaList hnil, List.flatMap_map, List.mem_flatMap] at hmem
    obtain ⟨name, hname, hmem⟩ := hmem
    obtain rfl | hmem := List.mem_cons.1 hmem
    · decide
    · exact h name hname c hmem

theorem phrase_commaList {names : List String} (h : ∀ name ∈ names, name ≠ "" ∧ Solid name)
    (hne : names ≠ []) : Phrase (commaList names).toList :=
  (solid_commaList fun name hname => (h name hname).2).phrase
    (commaList_ne_empty (fun name hname => (h name hname).1) hne)

/-- The keywords of the lists of names are two words, of which the second is `BY`. -/
theorem optionalPhrase_listFragment (verb : String) (hverb : Solid verb ∧ verb ≠ "")
    {names : List String} (h : ∀ name ∈ names, name ≠ "" ∧ Solid name) :
    OptionalPhrase (listFragment (verb ++ " BY") names).toList := by
  rw [listFragment]
  split
  · exact .inl rfl
  · next hne =>
    have hby := phrase_keyword "BY" (by decide) (phrase_commaList h hne)
    have hphrase := phrase_keyword verb hverb hby
    exact .inr (by simpa [String.append_assoc] using hphrase)

/-- An aggregate after its comma is three words: the call, `AS` and the name. -/
theorem phrase_aggregate {function name : String} (hf : Solid function)
    (h : name ≠ "" ∧ Solid name) :
    Phrase (SelectItem.aggregate function name).afterComma := by
  have hcall : Phrase ("," ++ (function ++ ("(" ++ (name ++ ")")))).toList := by
    refine Solid.phrase ?_ (by simp)
    exact solid_append (by decide) (solid_append hf (solid_append (by decide)
      (solid_append h.2 (by decide))))
  have hname := h.2.phrase h.1
  have has : Phrase "AS".toList := Solid.phrase (by decide) (by decide)
  have hitem := hcall.blank (has.blank hname)
  simpa [SelectItem.afterComma, SelectItem.text, aggregateText] using hitem

theorem optionalPhrase_aggregatesText {c : Clauses} (hsum : ∀ name ∈ c.sum, name ≠ "" ∧ Solid name)
    (hcount : ∀ name ∈ c.count, name ≠ "" ∧ Solid name) :
    OptionalPhrase (aggregatesText c).toList := by
  rw [toList_aggregatesText]
  refine .flatMap fun i hi => .inr ?_
  obtain hi | hi := List.mem_append.1 hi
  · obtain ⟨name, hname, rfl⟩ := List.mem_map.1 hi
    exact phrase_aggregate (by decide) (hsum name hname)
  · obtain ⟨name, hname, rfl⟩ := List.mem_map.1 hi
    exact phrase_aggregate (by decide) (hcount name hname)

theorem phrase_toString (n : Nat) : Phrase (toString n).toList := by
  rw [Digits.toList_toString]
  refine (OptionalPhrase.of_paired (.of_forall fun c hc => ?_)).resolve_left
    (Digits.ofNat_ne_nil n)
  have hdigit := Digits.isDigit_of_mem_ofNat hc
  exact ⟨Nesting.ne_of_class hdigit (by decide), Nesting.ne_of_class hdigit (by decide)⟩

/-! ### Joined fragments -/

theorem length_spaced (f : String) :
    (spaced true f).length = (spaced false f).length + if f = "" then 1 else 0 := by
  by_cases hf : f = ""
  · rw [if_pos hf, hf]
    rfl
  · rw [if_neg hf, spaced_of_ne_empty true hf, spaced_of_ne_empty false hf, Nat.add_zero]

theorem length_join_spaced (parts : List String) :
    (String.join (parts.map (spaced true))).length =
      (String.join (parts.map (spaced false))).length + parts.count "" := by
  induction parts with
  | nil => rfl
  | cons f parts ih =>
    have hf := length_spaced f
    rw [List.map_cons, List.map_cons, String.join_cons, String.join_cons, String.length_append,
      String.length_append, ih, hf, List.count_cons]
    simp only [beq_iff_eq]
    omega

/-- The older spacing adds a blank for each empty fragment. -/
theorem length_joinFragments {f : String} (hf : f ≠ "") (parts : List String) :
    (joinFragments true (f :: parts)).length =
      (joinFragments false (f :: parts)).length + (f :: parts).count "" := by
  rw [joinFragments_cons true hf, joinFragments_cons false hf, String.length_append,
    String.length_append, length_join_spaced, Nat.add_assoc, List.count_cons_of_ne hf]

/-- Where no fragment is empty there is nothing to leave out. -/
theorem joinFragments_of_ne_empty {parts : List String} (h : "" ∉ parts) :
    joinFragments true parts = joinFragments false parts := by
  have hkeep : parts.filter (· ≠ "") = parts := by
    refine List.filter_eq_self.2 fun f hf => decide_eq_true ?_
    rintro rfl
    exact h hf
  rw [joinFragments, joinFragments, if_pos rfl, if_neg Bool.false_ne_true, hkeep]

theorem phrase_append_join {l : List Char} (hl : Phrase l) {parts : List String}
    (h : ∀ part ∈ parts, OptionalPhrase part.toList) :
    Phrase (l ++ (String.join (parts.map (spaced false))).toList) := by
  induction parts generalizing l with
  | nil => simpa using hl
  | cons f parts ih =>
    rw [List.forall_mem_cons] at h
    obtain ⟨hf, hparts⟩ := h
    rw [List.map_cons, String.join_cons, String.toList_append, ← List.append_assoc]
    refine ih ?_ hparts
    obtain rfl | hf := hf.eq_empty_or_phrase
    · simpa [spaced] using hl
    · rw [spaced_of_ne_empty false hf.ne_empty, String.toList_append]
      exact hl.blank hf

/-- A statement of phrases is a phrase with the newer spacing. -/
theorem phrase_joinFragments {f g : String} (hf : Phrase f.toList) (hg : Phrase g.toList)
    {parts : List String} (h : ∀ part ∈ parts, OptionalPhrase part.toList) :
    Phrase (joinFragments false (f :: (parts ++ [g]))).toList := by
  have hparts : ∀ part ∈ parts ++ [g], OptionalPhrase part.toList := by
    rw [List.forall_mem_append, List.forall_mem_singleton]
    exact ⟨h, .inr hg⟩
  rw [joinFragments_cons false hf.ne_empty, String.toList_append]
  exact phrase_append_join hf hparts

/-- Before a further blank, the blank of an empty fragment is dropped. -/
theorem collapseFrom_spaced {f : String} (hf : OptionalPhrase f.toList) (r : List Char) :
    collapseFrom .other ((spaced true f).toList ++ ' ' :: r) =
      (spaced false f).toList ++ collapseFrom .other (' ' :: r) := by
  obtain rfl | hf := hf.eq_empty_or_phrase
  · simp [spaced, collapseFrom, Reader.next]
  · obtain ⟨hcollapse, hlast⟩ := hf .blank (by decide)
    have hnext : Reader.other.next ' ' = .blank := rfl
    have hspaced : (" " ++ f).toList = ' ' :: f.toList := by simp
    rw [spaced_of_ne_empty true hf.ne_empty, spaced_of_ne_empty false hf.ne_empty, hspaced,
      collapseFrom_append, List.foldl_cons, hnext, hlast, collapseFrom, if_neg (by decide), hnext, hcollapse]

/-- The blanks of empty fragments are dropped, as long as another fragment follows. -/
theorem collapseFrom_join_spaced {parts : List String}
    (h : ∀ part ∈ parts, OptionalPhrase part.toList) (r : List Char) :
    collapseFrom .other ((String.join (parts.map (spaced true))).toList ++ ' ' :: r) =
      (String.join (parts.map (spaced false))).toList ++ collapseFrom .other (' ' :: r) := by
  induction parts with
  | nil => rfl
  | cons f parts ih =>
    rw [List.forall_mem_cons] at h
    -- What follows a fragment starts with a blank in any case.
    have hfollowing : ∃ r', (String.join (parts.map (spaced true))).toList ++ ' ' :: r =
        ' ' :: r' := by
      cases parts with
      | nil => exact ⟨r, rfl⟩
      | cons g parts => simp
    obtain ⟨r', hr'⟩ := hfollowing
    rw [List.map_cons, List.map_cons, String.join_cons, String.join_cons, String.toList_append,
      String.toList_append, List.append_assoc, List.append_assoc, ← ih h.2, hr',
      collapseFrom_spaced h.1]

/-- Collapsed, a statement of phrases with the older spacing is that with the newer one. -/
theorem collapse_joinFragments {f g : String} (hf : Phrase f.toList) (hg : Phrase g.toList)
    {parts : List String} (h : ∀ part ∈ parts, OptionalPhrase part.toList) :
    collapse (joinFragments true (f :: (parts ++ [g]))) =
      joinFragments false (f :: (parts ++ [g])) := by
  have hjoin : ∀ legacySpacing, (joinFragments legacySpacing (f :: (parts ++ [g]))).toList =
      f.toList ++ ((String.join (parts.map (spaced legacySpacing))).toList ++ ' ' :: g.toList) := by
    intro legacySpacing
    rw [joinFragments_cons legacySpacing hf.ne_empty]
    simp [spaced_of_ne_empty legacySpacing hg.ne_empty]
  obtain ⟨hcollapse, hlast⟩ := hf .other (by decide)
  have hend : collapseFrom .other (' ' :: g.toList) = ' ' :: g.toList := by
    have hphrase := (hf.blank hg .other (by decide)).1
    rw [collapseFrom_append_eq_self_iff, hlast] at hphrase
    exact hphrase.2
  rw [collapse, hjoin, collapseFrom_append, hcollapse, hlast, collapseFrom_join_spaced h, hend,
    ← hjoin, String.ofList_toList]

/-! ### Statements -/

/-- How many of the clauses WHERE, GROUP BY and ORDER BY are not written. A condition
    without text is not. -/
def Clauses.absent (c : Clauses) : Nat :=
  (if c.predicateText = "" then 1 else 0) + (if c.groupBy = [] then 1 else 0) +
    (if c.orderBy = [] then 1 else 0)

theorem listFragment_eq_empty_iff {keyword : String} {names : List String} :
    listFragment keyword names = "" ↔ names = [] := by
  rw [listFragment]
  split
  · next h => simp [h]
  · next h => simp [h]

/-- The fragments that can be empty are those of the three clauses. -/
theorem count_fragments (e : Entity) (c : Clauses) :
    (fragments e c c.conditionText).count "" = c.absent := by
  simp only [fragments, List.count_cons, List.count_nil, beq_iff_eq, selectFragment_ne_empty,
    fromFragment_ne_empty, offsetFragment_ne_empty, limitFragment_ne_empty, if_false,
    Nat.add_zero, Nat.zero_add, groupByFragment, orderByFragment, listFragment_eq_empty_iff,
    Clauses.conditionText_eq_empty_iff_predicateText, Clauses.absent]
  omega

namespace Query

/-- Every name of the query is in one piece: it is not empty and has neither blanks nor
    quotes. A column of the condition may have no name. No text has a quote. -/
structure InOnePiece (q : Query) : Prop where
  table : q.entity.table ≠ "" ∧ Solid q.entity.table
  columns : ∀ column ∈ q.entity.columns, column.name ≠ "" ∧ Solid column.name
  lists : ∀ list, ∀ name ∈ q.clauses.nameList list, name ≠ "" ∧ Solid name
  fieldNames : ∀ p ∈ q.clauses.predicate, ∀ name ∈ p.fieldNames, Solid name
  texts : ∀ p ∈ q.clauses.predicate, ∀ s ∈ p.texts, '\'' ∉ s.toList

/-- How the statement of a query with the older spacing differs from that with the newer
    one: by a blank for each clause that is not written. -/
structure OlderSpacing (q : Query) (newer older : String) : Prop where
  length : older.length = newer.length + q.clauses.absent
  same : q.clauses.absent = 0 → older = newer
  tidy : q.InOnePiece → q.fields ≠ [] → Tidy newer
  collapse_eq : q.InOnePiece → q.fields ≠ [] → collapse older = newer

variable {q : Query}

theorem InOnePiece.phrase_selectFragment (h : q.InOnePiece) (hfields : q.fields ≠ []) :
    Phrase (selectFragment q.entity q.clauses).toList := by
  have hselect : Phrase "SELECT".toList := Solid.phrase (by decide) (by decide)
  have hnames : ∀ name ∈ projectionFields q.entity q.clauses, name ≠ "" ∧ Solid name := by
    intro name hname
    obtain ⟨column, hcolumn, rfl⟩ | hgroup := mem_projectionFields hname
    · exact h.columns column hcolumn
    · exact h.lists .groupBy name hgroup
  have hlist := hselect.blank (phrase_commaList hnames hfields)
  have hphrase := hlist.append_optional
    (optionalPhrase_aggregatesText (h.lists .sum) (h.lists .count))
  simpa [selectFragment, projectionText] using hphrase

theorem InOnePiece.optionalPhrase_conditionText (h : q.InOnePiece) :
    OptionalPhrase q.clauses.conditionText.toList := by
  rw [Clauses.conditionText]
  split
  · exact .inl rfl
  · next hne =>
    cases hp : q.clauses.predicate with
    | none => exact absurd (Clauses.predicateText_of_eq_none hp) hne
    | some p =>
      have htext := Clauses.predicateText_of_eq_some hp
      rw [htext] at hne ⊢
      have hsql := (Expr.optionalPhrase_sql (h.fieldNames p hp) (h.texts p hp)).phrase hne
      exact .inr (phrase_keyword "WHERE" (by decide) hsql)

/-- The fragments between the first and the last one. -/
theorem InOnePiece.optionalPhrase_fragments (h : q.InOnePiece) :
    ∀ part ∈ [fromFragment q.entity, q.clauses.conditionText, groupByFragment q.clauses,
      orderByFragment q.clauses, offsetFragment q.clauses], OptionalPhrase part.toList := by
  have hfrom : Phrase (fromFragment q.entity).toList :=
    phrase_keyword "FROM" (by decide) (h.table.2.phrase h.table.1)
  have hgroup : OptionalPhrase (groupByFragment q.clauses).toList :=
    optionalPhrase_listFragment "GROUP" (by decide) (h.lists .groupBy)
  have horder : OptionalPhrase (orderByFragment q.clauses).toList :=
    optionalPhrase_listFragment "ORDER" (by decide) (h.lists .orderBy)
  have hoffset : Phrase (offsetFragment q.clauses).toList :=
    phrase_keyword "OFFSET" (by decide) (phrase_toString _)
  simp only [List.forall_mem_cons, List.not_mem_nil, false_imp_iff, implies_true, and_true]
  exact ⟨.inr hfrom, h.optionalPhrase_conditionText, hgroup, horder, .inr hoffset⟩

theorem phrase_limitFragment (c : Clauses) : Phrase (limitFragment c).toList :=
  phrase_keyword "LIMIT" (by decide) (phrase_toString _)

theorem olderSpacing_renderLenient (q : Query) :
    q.OlderSpacing (q.renderLenient false) (q.renderLenient true) := by
  have hcount := count_fragments q.entity q.clauses
  -- The fragments, as the first one, those that can be empty, and the last one.
  have hfragments : fragments q.entity q.clauses q.clauses.conditionText =
      selectFragment q.entity q.clauses :: ([fromFragment q.entity, q.clauses.conditionText,
        groupByFragment q.clauses, orderByFragment q.clauses, offsetFragment q.clauses] ++
          [limitFragment q.clauses]) := rfl
  rw [renderLenient_eq, renderLenient_eq]
  refine ⟨?_, fun habsent => ?_, fun h hfields => ?_, fun h hfields => ?_⟩
  · rw [← hcount, hfragments, length_joinFragments (selectFragment_ne_empty _ _)]
  · rw [habsent, List.count_eq_zero] at hcount
    exact joinFragments_of_ne_empty hcount
  · rw [hfragments]
    exact (phrase_joinFragments (h.phrase_selectFragment hfields)
      (phrase_limitFragment q.clauses) h.optionalPhrase_fragments).tidy
  · rw [hfragments]
    exact collapse_joinFragments (h.phrase_selectFragment hfields)
      (phrase_limitFragment q.clauses) h.optionalPhrase_fragments

/-- Under the same options a query is refused for the same reason with either spacing, or it
    has a statement with both. The statements differ by a blank for each clause that is not
    written; and if the names are in one piece and columns are selected, these are the only
    blanks side by side. -/
theorem render_both_spacings (q : Query) (o : RenderOptions) :
    (∃ x, q.render { o with legacySpacing := false } = .error x ∧
        q.render { o with legacySpacing := true } = .error x) ∨
      ∃ newer older, q.render { o with legacySpacing := false } = .ok newer ∧
        q.render { o with legacySpacing := true } = .ok older ∧ q.OlderSpacing newer older := by
  -- What refuses a query does not depend on the spacing.
  cases hrefusal : o.refusal q with
  | some x => exact .inl ⟨x, render_eq_error_iff.2 hrefusal, render_eq_error_iff.2 hrefusal⟩
  | none =>
    exact .inr ⟨q.renderLenient false, q.renderLenient true, render_eq_ok_iff.2 ⟨hrefusal, rfl⟩,
      render_eq_ok_iff.2 ⟨hrefusal, rfl⟩, q.olderSpacing_renderLenient⟩

/-- Sales by region, under a condition that has a token and a list beside empty operands,
    and a text with two blanks. -/
def salesOnNothing : Query where
  entity := { table := "Sale" }
  clauses :=
    { predicate := some (Expr.emptyLambda.and ((Expr.field "").isIn (.sequence [.text "a  b"])))
      groupBy := ["Region"]
      sum := ["Amount"] }

theorem render_both_spacings_salesOnNothing :
    salesOnNothing.InOnePiece ∧ salesOnNothing.fields ≠ [] ∧ salesOnNothing.clauses.absent = 1 ∧
      ∃ newer older, salesOnNothing.render { strict := true } = .ok newer ∧
        salesOnNothing.render { strict := true, legacySpacing := true } = .ok older ∧
        newer = "SELECT Region,SUM(Amount) AS Amount FROM Sale WHERE ( AND ( IN ('a  b'))) " ++
          "GROUP BY Region OFFSET 0 LIMIT 0" ∧
        older.length = newer.length + 1 ∧ Tidy newer ∧ collapse older = newer := by
  have hnames : salesOnNothing.InOnePiece :=
    ⟨by decide, by decide, fun list => by cases list <;> decide, by decide, by decide⟩
  have hfields : salesOnNothing.fields ≠ [] := by decide
  have hnewer : salesOnNothing.render { strict := true } = .ok
      ("SELECT Region,SUM(Amount) AS Amount FROM Sale WHERE ( AND ( IN ('a  b'))) " ++
        "GROUP BY Region OFFSET 0 LIMIT 0") := by rfl
  obtain ⟨x, herror, -⟩ | ⟨newer, older, hok, hok', hspacing⟩ :=
    salesOnNothing.render_both_spacings { strict := true }
  · rw [hnewer] at herror
    cases herror
  · refine ⟨hnames, hfields, rfl, newer, older, hok, hok', ?_, hspacing.length,
      hspacing.tidy hnames hfields, hspacing.collapse_eq hnames hfields⟩
    exact Except.ok.inj (hok.symm.trans hnewer)

end Query

end SqlSelect
