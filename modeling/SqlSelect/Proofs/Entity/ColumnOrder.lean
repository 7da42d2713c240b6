import Mathlib.Data.List.Nodup
import SqlSelect.Query

/-!
# The order of columns

Columns with distinct ordinals have one arrangement by ordinal, so nothing that an entity
says of its columns by ordinal depends on how its declaration was put together. A
statement sees the columns of an entity only through this arrangement.

## Main statements

* `Entity.ordered_congr`: distinct ordinals leave one arrangement;
* `Query.render_congr_fields`: a statement depends on the names by ordinal alone;
* `Query.columns_congr`: a declaration that is put together in another order is the same.
-/

namespace SqlSelect

namespace Entity

theorem order_le_trans (a b c : Column) (hab : decide (a.order ≤ b.order) = true)
    (hbc : decide (b.order ≤ c.order) = true) : decide (a.order ≤ c.order) = true := by
  rw [decide_eq_true_eq] at hab hbc ⊢
  exact UInt32.le_trans hab hbc

theorem order_le_total (a b : Column) :
    (decide (a.order ≤ b.order) || decide (b.order ≤ a.order)) = true := by
  rw [Bool.or_eq_true, decide_eq_true_eq, decide_eq_true_eq]
  exact UInt32.le_total a.order b.order

/-- No column has a smaller ordinal than a column before it. -/
theorem pairwise_ordered (e : Entity) : e.ordered.Pairwise fun a b => a.order ≤ b.order :=
  (List.pairwise_mergeSort order_le_trans order_le_total e.columns).imp of_decide_eq_true

variable {e e' : Entity}

/-- Columns with distinct ordinals have one arrangement by ordinal. -/
theorem ordered_congr (hcolumns : e.columns.Perm e'.columns)
    (hordinals : (e.columns.map Column.order).Nodup) : e.ordered = e'.ordered := by
  have hperm : e.ordered.Perm e'.ordered :=
    e.perm_ordered.trans (hcolumns.trans e'.perm_ordered.symm)
  refine hperm.eq_of_pairwise ?_ e.pairwise_ordered e'.pairwise_ordered
  intro a b ha hb hab hba
  -- Two columns at one place have the same ordinal and so are one column.
  have ha : a ∈ e.columns := e.perm_ordered.mem_iff.1 ha
  have hb : b ∈ e.columns := hcolumns.mem_iff.2 (e'.perm_ordered.mem_iff.1 hb)
  exact List.inj_on_of_nodup_map hordinals ha hb (UInt32.le_antisymm hab hba)

/-- Among columns with distinct names a column is found by its name. -/
theorem column?_eq_some_iff (hnames : (e.columns.map Column.name).Nodup) {name : String}
    {c : Column} : e.column? name = some c ↔ c ∈ e.columns ∧ c.name = name := by
  constructor
  · intro h
    exact ⟨List.mem_of_find?_eq_some h, by simpa using List.find?_some h⟩
  · rintro ⟨hc, rfl⟩
    have hfound : (e.column? c.name).isSome = true :=
      List.find?_isSome.2 ⟨c, hc, beq_self_eq_true c.name⟩
    obtain ⟨d, hd⟩ := Option.isSome_iff_exists.1 hfound
    have hname : d.name = c.name := by simpa using List.find?_some hd
    rw [hd, List.inj_on_of_nodup_map hnames (List.mem_of_find?_eq_some hd) hc hname]

theorem column?_congr (hcolumns : e.columns.Perm e'.columns)
    (hnames : (e.columns.map Column.name).Nodup) (name : String) :
    e.column? name = e'.column? name := by
  have hnames' : (e'.columns.map Column.name).Nodup :=
    (hcolumns.map Column.name).nodup_iff.1 hnames
  refine Option.ext fun c => ?_
  rw [column?_eq_some_iff hnames, column?_eq_some_iff hnames', hcolumns.mem_iff]

end Entity

/-! ### Statements -/

section

variable {e e' : Entity}

theorem projectionFields_congr (hfields : e.fields = e'.fields) (c : Clauses) :
    projectionFields e c = projectionFields e' c := by
  rw [projectionFields, projectionFields, hfields]

/-- A statement depends on the table and on the names by ordinal, and on nothing else of
    an entity. -/
theorem statement_congr {m : Type → Type} [Monad m] (htable : e.table = e'.table)
    (hfields : e.fields = e'.fields) (onGap : Gap → m Unit) (legacySpacing : Bool)
    (c : Clauses) : statement onGap legacySpacing e c = statement onGap legacySpacing e' c := by
  have hparts : fragments e c = fragments e' c := by
    funext condition
    simp only [fragments, selectFragment, fromFragment, projectionText, htable,
      projectionFields_congr hfields]
  rw [statement, statement, hparts]

end

namespace Query

variable {e e' : Entity}

theorem render_congr_fields (htable : e.table = e'.table) (hfields : e.fields = e'.fields)
    (c : Clauses) (o : RenderOptions) :
    (Query.mk e c).render o = (Query.mk e' c).render o := by
  simp only [render, renderStrict, renderLenient, htable,
    statement_congr htable hfields]

/-- A declaration of columns with distinct ordinals is the same in every order: the
    columns are listed in one order, one of them is the primary column, every query is
    rendered in the same way under all options, and a column is found by its name if no
    other has that name. -/
theorem columns_congr (htable : e.table = e'.table) (hcolumns : e.columns.Perm e'.columns)
    (hordinals : (e.columns.map Column.order).Nodup) :
    e.fields = e'.fields ∧ e.primary? = e'.primary? ∧
      (∀ c o, (Query.mk e c).render o = (Query.mk e' c).render o) ∧
      ((e.columns.map Column.name).Nodup → ∀ name, e.column? name = e'.column? name) := by
  have hordered : e.ordered = e'.ordered := Entity.ordered_congr hcolumns hordinals
  have hfields : e.fields = e'.fields := by rw [Entity.fields, Entity.fields, hordered]
  refine ⟨hfields, ?_, ?_, ?_⟩
  · rw [Entity.primary?, Entity.primary?, hordered]
  · exact render_congr_fields htable hfields
  · exact Entity.column?_congr hcolumns

/-- Columns that are declared backwards, two of them flagged as primary. -/
theorem columns_congr_backwards :
    let e : Entity := ⟨"Orders",
      [⟨"Id", 1, true⟩, ⟨"Key", 10, true⟩, ⟨"Total", 4294967295, false⟩, ⟨"Region", 0, false⟩]⟩
    let e' : Entity := ⟨"Orders", e.columns.reverse⟩
    (e.table = e'.table ∧ e.columns.Perm e'.columns ∧
      (e.columns.map Column.order).Nodup ∧ (e.columns.map Column.name).Nodup) ∧
    (e.fields = e'.fields ∧ e.primary? = e'.primary? ∧
      (∀ c o, (Query.mk e c).render o = (Query.mk e' c).render o) ∧
      ((e.columns.map Column.name).Nodup → ∀ name, e.column? name = e'.column? name)) := by
  intro e e'
  have hcolumns : e.columns.Perm e'.columns := (List.reverse_perm e.columns).symm
  have hordinals : (e.columns.map Column.order).Nodup := by decide
  exact ⟨⟨rfl, hcolumns, hordinals, by decide⟩, columns_congr rfl hcolumns hordinals⟩

end Query

end SqlSelect
