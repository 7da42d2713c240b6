import SqlSelect.Proofs.Entity.ColumnOrder

/-!
# Columns by ordinal and place

The order of the columns of an entity in terms of its declaration: a column comes before
another one if its ordinal is smaller, or if the ordinals are the same and it is declared
earlier. So the columns have one arrangement, whatever their ordinals, and the primary
column is the least flagged one.

## Main definitions

* `Column.Before`: the order of columns with their places in a declaration;
* `Arrangement`: declared columns with their places, in that order.

## Main statements

* `Arrangement.unique`: a declaration has one arrangement;
* `Entity.arrangement_placed`: the columns by ordinal are in it;
* `Arrangement.primary?_eq_some_iff`: the primary column is the least flagged one;
* `Entity.fields_and_primary?_by_place`: what an entity says of its columns by ordinal.
-/

namespace SqlSelect

/-- A column with its place in a declaration comes before another one: its ordinal is
    smaller, or the ordinals are the same and it is declared earlier. -/
def Column.Before (a b : Column × Nat) : Prop :=
  a.1.order < b.1.order ∨ a.1.order = b.1.order ∧ a.2 < b.2

theorem Column.Before.asymm {a b : Column × Nat} (h : Before a b) : ¬Before b a := by
  rintro (hlt | ⟨heq, hplace⟩)
  · obtain hlt' | ⟨heq', -⟩ := h
    · exact UInt32.lt_asymm hlt hlt'
    · exact UInt32.lt_irrefl _ (heq' ▸ hlt)
  · obtain hlt' | ⟨-, hplace'⟩ := h
    · exact UInt32.lt_irrefl _ (heq ▸ hlt')
    · exact Nat.lt_asymm hplace hplace'

/-- The declared columns, each with its place, in their order: none is lost and none is
    repeated. -/
structure Arrangement (columns : List Column) (placed : List (Column × Nat)) : Prop where
  perm : placed.Perm columns.zipIdx
  order : placed.Pairwise Column.Before

namespace Arrangement

variable {columns : List Column} {placed placed' : List (Column × Nat)}

/-- A declaration has one arrangement. -/
theorem unique (h : Arrangement columns placed) (h' : Arrangement columns placed') :
    placed = placed' := by
  have hperm : placed.Perm placed' := h.perm.trans h'.perm.symm
  refine hperm.eq_of_pairwise ?_ h.order h'.order
  intro a b _ _ hab hba
  exact absurd hba hab.asymm

theorem mem_iff (h : Arrangement columns placed) {column : Column} {place : Nat} :
    (column, place) ∈ placed ↔ columns[place]? = some column := by
  rw [h.perm.mem_iff, List.mk_mem_zipIdx_iff_getElem?]

end Arrangement

/-- In a list that is ordered, the first wanted element comes before every other one. -/
theorem find?_eq_some_iff_of_pairwise {α : Type} {r : α → α → Prop}
    (hasymm : ∀ {a b}, r a b → ¬r b a) {l : List α} (h : l.Pairwise r) {p : α → Bool} {a : α} :
    l.find? p = some a ↔ a ∈ l ∧ p a = true ∧ ∀ b ∈ l, p b = true → b = a ∨ r a b := by
  induction l with
  | nil => simp
  | cons x l ih =>
    obtain ⟨hx, hl⟩ := List.pairwise_cons.1 h
    by_cases hp : p x = true
    · rw [List.find?_cons_of_pos hp, Option.some_inj]
      constructor
      · rintro rfl
        refine ⟨List.mem_cons_self, hp, ?_⟩
        intro b hb _
        obtain rfl | hb := List.mem_cons.1 hb
        · exact .inl rfl
        · exact .inr (hx b hb)
      · rintro ⟨ha, -, hleast⟩
        obtain rfl | ha := List.mem_cons.1 ha
        · rfl
        -- The first element comes before all others, so none of them is the least.
        · obtain heq | hlt := hleast x List.mem_cons_self hp
          · exact heq
          · exact absurd (hx a ha) (hasymm hlt)
    · rw [List.find?_cons_of_neg hp, ih hl]
      constructor
      · rintro ⟨ha, hpa, hleast⟩
        refine ⟨List.mem_cons_of_mem x ha, hpa, ?_⟩
        intro b hb hpb
        obtain rfl | hb := List.mem_cons.1 hb
        · exact absurd hpb hp
        · exact hleast b hb hpb
      · rintro ⟨ha, hpa, hleast⟩
        obtain rfl | ha := List.mem_cons.1 ha
        · exact absurd hpa hp
        · exact ⟨ha, hpa, fun b hb => hleast b (List.mem_cons_of_mem x hb)⟩

namespace Entity

variable (e : Entity)

/-- The columns by ordinal, each with its place in the declaration. -/
def placed : List (Column × Nat) :=
  e.columns.zipIdx.mergeSort (List.zipIdxLE fun a b => a.order ≤ b.order)

/-- Sorting is stable: it does not matter whether the places are carried along. -/
theorem map_fst_placed : e.placed.map Prod.fst = e.ordered := List.mergeSort_zipIdx

theorem fields_eq_map_placed : e.fields = e.placed.map fun p => p.1.name := by
  rw [fields, ← map_fst_placed, List.map_map]
  rfl

theorem perm_placed : e.placed.Perm e.columns.zipIdx := List.mergeSort_perm _ _

theorem pairwise_placed : e.placed.Pairwise fun a b => a.2 ≠ b.2 := by
  have hplaces : (e.placed.map Prod.snd).Nodup := by
    rw [(e.perm_placed.map Prod.snd).nodup_iff, List.zipIdx_map_snd]
    exact List.nodup_range'
  exact List.pairwise_map.1 hplaces

/-- The columns by ordinal are the arrangement of their declaration. -/
theorem arrangement_placed : Arrangement e.columns e.placed where
  perm := e.perm_placed
  order := by
    have hsorted := List.pairwise_mergeSort (List.zipIdxLE_trans order_le_trans)
      (List.zipIdxLE_total order_le_total) e.columns.zipIdx
    apply (hsorted.and e.pairwise_placed).imp
    rintro a b ⟨hle, hne⟩
    simp only [List.zipIdxLE, decide_eq_true_eq] at hle
    split at hle
    · next hab =>
      split at hle
      · next hba =>
        -- Of columns with one ordinal the earlier declared one comes first.
        have hplace : a.2 ≤ b.2 := of_decide_eq_true hle
        exact .inr ⟨UInt32.le_antisymm hab hba, Nat.lt_of_le_of_ne hplace hne⟩
      · next hba => exact .inl (UInt32.not_le.1 hba)
    · cases hle

variable {e}

theorem primary?_eq_none_iff : e.primary? = none ↔ ∀ column ∈ e.columns, column.primary = false := by
  rw [primary?, Option.map_eq_none_iff, List.find?_eq_none]
  simp only [e.perm_ordered.mem_iff, Bool.not_eq_true]

/-- The primary column is the least one that is flagged. -/
theorem primary?_eq_some_iff {name : String} :
    e.primary? = some name ↔ ∃ column place, e.columns[place]? = some column ∧
      column.name = name ∧ column.primary = true ∧
      ∀ other place', e.columns[place']? = some other → other.primary = true →
        place' = place ∨ Column.Before (column, place) (other, place') := by
  have harrangement := e.arrangement_placed
  have hfind : ∀ p, e.placed.find? (Column.primary ∘ Prod.fst) = some p ↔
      p ∈ e.placed ∧ p.1.primary = true ∧
        ∀ b ∈ e.placed, b.1.primary = true → b = p ∨ Column.Before p b := fun p =>
    find?_eq_some_iff_of_pairwise Column.Before.asymm harrangement.order
  rw [primary?, ← map_fst_placed, List.find?_map, Option.map_map, Option.map_eq_some_iff]
  constructor
  · rintro ⟨⟨column, place⟩, hp, rfl⟩
    obtain ⟨hmem, hprimary, hleast⟩ := (hfind _).1 hp
    refine ⟨column, place, harrangement.mem_iff.1 hmem, rfl, hprimary, ?_⟩
    intro other place' hother hflag
    obtain heq | hlt := hleast (other, place') (harrangement.mem_iff.2 hother) hflag
    · exact .inl (congrArg Prod.snd heq)
    · exact .inr hlt
  · rintro ⟨column, place, hcolumn, rfl, hprimary, hleast⟩
    refine ⟨(column, place), (hfind _).2 ⟨harrangement.mem_iff.2 hcolumn, hprimary, ?_⟩, rfl⟩
    rintro ⟨other, place'⟩ hmem hflag
    have hother := harrangement.mem_iff.1 hmem
    obtain rfl | hlt := hleast other place' hother hflag
    -- One column stands at one place.
    · obtain rfl := Option.some.inj (hother.symm.trans hcolumn)
      exact .inl rfl
    · exact .inr hlt

/-- By ordinal, the name of every declared column is listed as often as it is declared, in
    the one arrangement of the declaration by ordinal and place. There is a primary column
    unless none is flagged; it is the flagged column with the least ordinal, and of several
    such columns the one that is declared first. -/
theorem fields_and_primary?_by_place (e : Entity) :
    (∀ name, e.fields.count name = (e.columns.map Column.name).count name) ∧
      (∀ names, e.fields = names ↔
        ∃ placed, Arrangement e.columns placed ∧ names = placed.map fun p => p.1.name) ∧
      (e.primary? = none ↔ ∀ column ∈ e.columns, column.primary = false) ∧
      ∀ name, e.primary? = some name ↔ ∃ column place, e.columns[place]? = some column ∧
        column.name = name ∧ column.primary = true ∧
        ∀ other place', e.columns[place']? = some other → other.primary = true →
          place' = place ∨ Column.Before (column, place) (other, place') := by
  refine ⟨?_, ?_, primary?_eq_none_iff, fun name => primary?_eq_some_iff⟩
  · intro name
    exact (e.perm_ordered.map Column.name).count_eq name
  · intro names
    rw [fields_eq_map_placed]
    constructor
    · rintro rfl
      exact ⟨e.placed, e.arrangement_placed, rfl⟩
    · rintro ⟨placed, hplaced, rfl⟩
      rw [e.arrangement_placed.unique hplaced]

end Entity

end SqlSelect
