import SqlSelect.Proofs.Statement.SelectList

/-!
# Items between commas

The SELECT list, split at its commas. Every aggregate brings the comma before it, and no
comma stands before the first column. So the parts between the commas are the items of the
list, unless it starts with an aggregate: then an empty part comes first.

## Main definitions

* `partsOf`: the parts of a text between its commas;
* `ItemNames`: the names in a statement, where none is empty and none has a comma in it.

## Main statements

* `projectionFields_eq_nil_iff`: when no columns are selected;
* `partsOf_selectList`: the parts of a SELECT list;
* `partsOf_selectList_iff`: when they are its items.
-/

namespace SqlSelect

/-- The parts of a text between its commas. -/
def partsOf (text : List Char) : List String := (text.splitOn ',').map String.ofList

/-- A name that can be told from its neighbours in a list with commas. -/
def IsItemName (name : String) : Prop := name ≠ "" ∧ ',' ∉ name.toList

/-- The names that can be in the SELECT list of a statement. -/
structure ItemNames (e : Entity) (c : Clauses) : Prop where
  columns : ∀ column ∈ e.columns, IsItemName column.name
  groupBy : ∀ name ∈ c.groupBy, IsItemName name
  sum : ∀ name ∈ c.sum, IsItemName name
  count : ∀ name ∈ c.count, IsItemName name

/-! ### Selected columns -/

theorem Entity.fields_eq_nil_iff {e : Entity} : e.fields = [] ↔ e.columns = [] := by
  rw [fields, List.map_eq_nil_iff]
  exact ⟨fun h => (h ▸ e.perm_ordered).nil_eq.symm, fun h => (h ▸ e.perm_ordered).eq_nil⟩

/-- Columns are selected unless there are none to select. -/
theorem projectionFields_eq_nil_iff {e : Entity} {c : Clauses} :
    projectionFields e c = [] ↔ e.columns = [] ∧ c.groupBy = [] := by
  rw [projectionFields_eq_nil_iff_available, available]
  split
  · next hgroup => simp [Entity.fields_eq_nil_iff, hgroup]
  · next hgroup => simp [hgroup]

/-- All items of a SELECT list have texts without commas. -/
theorem ItemNames.isItemName_text {e : Entity} {c : Clauses} (h : ItemNames e c) :
    ∀ i ∈ selectItems e c, IsItemName i.text := by
  have haggregate : ∀ function name : String, ',' ∉ function.toList → IsItemName name →
      IsItemName (aggregateText function name) := by
    intro function name hfunction hname
    refine ⟨by simp [aggregateText], ?_⟩
    simp [aggregateText, hfunction, hname.2]
  intro i hi
  simp only [selectItems, aggregateItems, List.mem_append, List.mem_map] at hi
  obtain ⟨name, hname, rfl⟩ | ⟨name, hname, rfl⟩ | ⟨name, hname, rfl⟩ := hi
  · obtain ⟨column, hcolumn, rfl⟩ | hgroup := mem_projectionFields hname
    · exact h.columns column hcolumn
    · exact h.groupBy name hgroup
  · exact haggregate "SUM" name (by decide) (h.sum name hname)
  · exact haggregate "COUNT" name (by decide) (h.count name hname)

/-! ### Parts -/

theorem intercalate_cons_eq_flatMap (first : List Char) (rest : List (List Char)) :
    [','].intercalate (first :: rest) = first ++ rest.flatMap (',' :: ·) := by
  induction rest generalizing first with
  | nil => simp
  | cons next rest ih => rw [List.intercalate_cons_cons, ih]; simp

/-- A SELECT list is its items with commas between them, after an empty text if no columns
    are selected. -/
theorem selectList_eq_intercalate (e : Entity) (c : Clauses) :
    selectList e c = [','].intercalate
      ((if projectionFields e c = [] then [[]] else []) ++
        (selectItems e c).map (·.text.toList)) := by
  have hitems : (selectItems e c).flatMap SelectItem.afterComma =
      ((selectItems e c).map (·.text.toList)).flatMap (',' :: ·) := by
    rw [List.flatMap_map]
    rfl
  by_cases hfields : projectionFields e c = []
  · rw [if_pos hfields, List.singleton_append, intercalate_cons_eq_flatMap, ← hitems,
      selectList_of_fields_eq_nil hfields, List.nil_append]
  · have hlist := comma_cons_selectList hfields
    have hne : selectItems e c ≠ [] := by simp [selectItems, hfields]
    obtain ⟨first, rest, hcons⟩ := List.exists_cons_of_ne_nil hne
    rw [hitems, hcons, List.map_cons, List.flatMap_cons, List.cons_append] at hlist
    rw [if_neg hfields, List.nil_append, hcons, List.map_cons, intercalate_cons_eq_flatMap,
      (List.cons.inj hlist).2]

theorem partsOf_intercalate {parts : List (List Char)} (hne : parts ≠ [])
    (h : ∀ part ∈ parts, ',' ∉ part) :
    partsOf ([','].intercalate parts) = parts.map String.ofList := by
  rw [partsOf, List.splitOn_intercalate ',' h hne]

/-- The parts of a SELECT list are its items, after an empty part if no columns are
    selected. -/
theorem partsOf_selectList {e : Entity} {c : Clauses} (h : ItemNames e c)
    (hne : selectItems e c ≠ []) :
    partsOf (selectList e c) =
      (if projectionFields e c = [] then [""] else []) ++
        (selectItems e c).map SelectItem.text := by
  rw [selectList_eq_intercalate, partsOf_intercalate]
  · by_cases hfields : projectionFields e c = []
    · simp [hfields]
    · simp [hfields]
  · simp [hne]
  · intro part hpart
    obtain hpart | hpart := List.mem_append.1 hpart
    · split at hpart
      · rw [List.mem_singleton.1 hpart]
        exact List.not_mem_nil
      · cases hpart
    · obtain ⟨i, hi, rfl⟩ := List.mem_map.1 hpart
      exact (h.isItemName_text i hi).2

theorem map_text_selectItems (e : Entity) (c : Clauses) :
    (selectItems e c).map SelectItem.text =
      projectionFields e c ++ c.sum.map (aggregateText "SUM") ++
        c.count.map (aggregateText "COUNT") := by
  simp [selectItems, aggregateItems, Function.comp_def, SelectItem.text]

/-- What follows `SELECT` in a statement with columns or aggregates splits at its commas
    into the columns, the sums and the counts, none of them empty, exactly if the entity has
    columns or there are grouping columns. Otherwise the comma of the first aggregate comes
    first, with nothing before it. -/
theorem partsOf_selectList_iff {e : Entity} {c : Clauses} (h : ItemNames e c)
    (hne : projectionFields e c ++ c.sum ++ c.count ≠ []) :
    selectFragment e c = "SELECT " ++ String.ofList (selectList e c) ∧
      ((partsOf (selectList e c) =
            projectionFields e c ++ c.sum.map (aggregateText "SUM") ++
              c.count.map (aggregateText "COUNT") ∧
          "" ∉ partsOf (selectList e c)) ↔ ¬(e.columns = [] ∧ c.groupBy = [])) ∧
      (e.columns = [] → c.groupBy = [] → partsOf (selectList e c) =
        "" :: (c.sum.map (aggregateText "SUM") ++ c.count.map (aggregateText "COUNT"))) := by
  have hitems : selectItems e c ≠ [] := fun hnil =>
    hne (by simpa [selectItems, aggregateItems, and_assoc] using hnil)
  have hparts := partsOf_selectList h hitems
  have htexts := map_text_selectItems e c
  refine ⟨by simp [selectFragment, selectList, String.append_assoc], ?_, ?_⟩
  · rw [← projectionFields_eq_nil_iff, ← htexts]
    by_cases hfields : projectionFields e c = []
    · refine iff_of_false ?_ (not_not_intro hfields)
      rintro ⟨-, hnone⟩
      exact hnone (by simp [hparts, hfields])
    · refine iff_of_true ⟨by simp [hparts, hfields], ?_⟩ hfields
      rw [hparts, if_neg hfields, List.nil_append]
      intro hempty
      obtain ⟨i, hi, htext⟩ := List.mem_map.1 hempty
      exact (h.isItemName_text i hi).1 htext
  · intro hcolumns hgroup
    have hfields := projectionFields_eq_nil_iff.2 ⟨hcolumns, hgroup⟩
    rw [hparts, htexts, if_pos hfields, hfields]
    simp

/-- An entity without declared columns, read by region. -/
def salesByRegion : Clauses where
  groupBy := ["Region", "AS"]
  projection := ["AS", "Amount"]
  sum := ["Amount"]
  count := ["Id", "Id"]

theorem partsOf_selectList_salesByRegion :
    ItemNames { table := "Sale" } salesByRegion ∧
      projectionFields { table := "Sale" } salesByRegion ++ salesByRegion.sum ++
        salesByRegion.count ≠ [] ∧
      partsOf (selectList { table := "Sale" } salesByRegion) =
        ["AS", "SUM(Amount) AS Amount", "COUNT(Id) AS Id", "COUNT(Id) AS Id"] := by
  have hnames : ItemNames { table := "Sale" } salesByRegion :=
    ⟨by simp, by simp [salesByRegion, IsItemName], by simp [salesByRegion, IsItemName],
      by simp [salesByRegion, IsItemName]⟩
  have hne : projectionFields { table := "Sale" } salesByRegion ++ salesByRegion.sum ++
      salesByRegion.count ≠ [] := by simp [salesByRegion]
  have hgroup : ¬(({ table := "Sale" } : Entity).columns = [] ∧ salesByRegion.groupBy = []) := by
    simp [salesByRegion]
  refine ⟨hnames, hne, ?_⟩
  rw [((partsOf_selectList_iff hnames hne).2.1.2 hgroup).1]
  rfl

/-- Without columns the list of a single sum starts with a comma. -/
theorem sum_without_columns_starts_with_comma :
    ¬ ∀ (e : Entity) (c : Clauses), ItemNames e c →
      projectionFields e c ++ c.sum ++ c.count ≠ [] →
      partsOf (selectList e c) =
          projectionFields e c ++ c.sum.map (aggregateText "SUM") ++
            c.count.map (aggregateText "COUNT") ∧
        "" ∉ partsOf (selectList e c) := by
  intro h
  have hnames : ItemNames { table := "Sale" } { sum := ["Amount"] } :=
    ⟨by simp, by simp, by simp [IsItemName], by simp⟩
  have hfields : projectionFields { table := "Sale" } { sum := ["Amount"] } = [] :=
    projectionFields_eq_nil_iff.2 ⟨rfl, rfl⟩
  have hparts : "" ∈ partsOf (selectList { table := "Sale" } { sum := ["Amount"] }) := by
    rw [partsOf_selectList hnames (by simp [selectItems, aggregateItems]), if_pos hfields]
    exact List.mem_append_left _ List.mem_cons_self
  exact (h { table := "Sale" } { sum := ["Amount"] } hnames (by simp)).2 hparts

end SqlSelect
