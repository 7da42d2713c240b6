import Mathlib.Data.List.Nodup
import SqlSelect.Statement

/-!
# Selected columns

A statement selects columns among those that are available: the grouping columns, or all
columns of the entity if there is no grouping. A request is kept as far as it is available,
and each name in it counts once, where it was requested first.

## Main definitions

* `FirstOccurrences`: the wanted elements of a list, each once, in the order in which they
  first stand in it;
* `available`: the names of which columns can be selected.

## Main statements

* `FirstOccurrences.eq_iff`: the description fits one list only;
* `firstOccurrences_eraseDups`: to delete repetitions is to keep first occurrences;
* `projectionFields_eq_nil_iff_available`: when no columns are selected;
* `projectionFields_requested_or_available`: which columns are selected.
-/

namespace SqlSelect

/-! ### First occurrences -/

section

variable {α : Type} [BEq α]

/-- The list `kept` holds the elements of `l` that satisfy `p`, each of them once, in the
    order in which they first stand in `l`. -/
structure FirstOccurrences (p : α → Prop) (l kept : List α) : Prop where
  mem : ∀ a, a ∈ kept ↔ a ∈ l ∧ p a
  nodup : kept.Nodup
  order : kept.Pairwise fun a b => l.idxOf a < l.idxOf b

namespace FirstOccurrences

variable {p : α → Prop} {l kept kept' : List α} {a : α}

theorem nil : FirstOccurrences p [] [] where
  mem a := by simp
  nodup := List.nodup_nil
  order := List.Pairwise.nil

/-- The elements and their order determine the list. -/
theorem unique (h : FirstOccurrences p l kept) (h' : FirstOccurrences p l kept') :
    kept = kept' := by
  have hperm : kept.Perm kept' := by
    rw [List.perm_ext_iff_of_nodup h.nodup h'.nodup]
    intro a
    rw [h.mem, h'.mem]
  refine hperm.eq_of_pairwise ?_ h.order h'.order
  intro a b _ _ hab hba
  exact absurd hab (Nat.lt_asymm hba)

theorem eq_iff (h : FirstOccurrences p l kept) : kept = kept' ↔ FirstOccurrences p l kept' := by
  constructor
  · rintro rfl
    exact h
  · exact h.unique

variable [LawfulBEq α]

/-- Elements other than the first one stand in the same order behind it. -/
theorem idxOf_cons_lt {b c : α} (hb : b ≠ a) (hc : c ≠ a) (h : l.idxOf b < l.idxOf c) :
    (a :: l).idxOf b < (a :: l).idxOf c := by
  rw [List.idxOf_cons_ne l hb.symm, List.idxOf_cons_ne l hc.symm]
  exact Nat.succ_lt_succ h

/-- A first element that is not wanted is passed over. -/
theorem skip (ha : ¬p a) (h : FirstOccurrences p l kept) : FirstOccurrences p (a :: l) kept := by
  have hne : ∀ b ∈ kept, b ≠ a := by
    rintro b hb rfl
    exact ha ((h.mem b).1 hb).2
  refine ⟨?_, h.nodup, ?_⟩
  · intro b
    rw [h.mem, List.mem_cons]
    constructor
    · rintro ⟨hb, hp⟩
      exact ⟨.inr hb, hp⟩
    · rintro ⟨rfl | hb, hp⟩
      · exact absurd hp ha
      · exact ⟨hb, hp⟩
  · apply h.order.imp_of_mem
    intro b c hb hc hlt
    exact idxOf_cons_lt (hne b hb) (hne c hc) hlt

/-- A first element that is wanted comes first, and does not come again. -/
theorem keep (ha : p a) (h : FirstOccurrences (fun b => p b ∧ b ≠ a) l kept) :
    FirstOccurrences p (a :: l) (a :: kept) := by
  have hne : ∀ b ∈ kept, b ≠ a := fun b hb => ((h.mem b).1 hb).2.2
  refine ⟨?_, ?_, ?_⟩
  · intro b
    rw [List.mem_cons, List.mem_cons, h.mem]
    by_cases hb : b = a
    · subst b
      simp [ha]
    · simp [hb]
  · rw [List.nodup_cons]
    exact ⟨fun hmem => hne a hmem rfl, h.nodup⟩
  · rw [List.pairwise_cons]
    constructor
    · intro b hb
      rw [List.idxOf_cons_self, List.idxOf_cons_ne l (hne b hb).symm]
      exact Nat.succ_pos _
    · apply h.order.imp_of_mem
      intro b c hb hc hlt
      exact idxOf_cons_lt (hne b hb) (hne c hc) hlt

end FirstOccurrences

variable [LawfulBEq α]

/-- The wanted elements without their repetitions are first occurrences. -/
theorem firstOccurrences_eraseDups (p : α → Bool) (l : List α) :
    FirstOccurrences (fun a => p a = true) l (l.filter p).eraseDups := by
  -- Behind a first occurrence its element is not wanted any more, so `p` varies.
  induction l generalizing p with
  | nil => exact .nil
  | cons a l ih =>
    by_cases ha : p a = true
    · rw [List.filter_cons_of_pos ha, List.eraseDups_cons, List.filter_filter]
      refine FirstOccurrences.keep (p := fun b => p b = true) ha ?_
      have hrest := ih fun b => (!b == a) && p b
      have hwanted : (fun b => ((!b == a) && p b) = true) = fun b => p b = true ∧ b ≠ a := by
        funext b
        simp [and_comm]
      rwa [hwanted] at hrest
    · rw [List.filter_cons_of_neg ha]
      exact (ih p).skip ha

end

/-! ### Requests -/

/-- The names of which columns can be selected. -/
def available (e : Entity) (c : Clauses) : List String :=
  if c.groupBy = [] then e.fields else c.groupBy

theorem available_of_groupBy {e : Entity} {c : Clauses} (h : c.groupBy ≠ []) :
    available e c = c.groupBy := if_neg h

theorem mem_requested {names wanted : List String} {name : String} :
    name ∈ requested names wanted ↔ name ∈ wanted ∧ name ∈ names := by
  rw [requested, List.mem_eraseDups, List.mem_filter, decide_eq_true_eq]

theorem requested_eq_nil_iff {names wanted : List String} :
    requested names wanted = [] ↔ ∀ name ∈ wanted, name ∉ names := by
  rw [List.eq_nil_iff_forall_not_mem]
  simp only [mem_requested, not_and]

theorem firstOccurrences_requested (names wanted : List String) :
    FirstOccurrences (· ∈ names) wanted (requested names wanted) := by
  simpa [requested] using firstOccurrences_eraseDups (fun name => decide (name ∈ names)) wanted

/-! ### Selected columns -/

variable {e : Entity} {c : Clauses}

theorem projectionFields_of_requested (h : ∃ name ∈ c.projection, name ∈ available e c) :
    projectionFields e c = requested (available e c) c.projection := by
  have hne : requested (available e c) c.projection ≠ [] := by
    obtain ⟨name, hname, havailable⟩ := h
    intro hnil
    exact requested_eq_nil_iff.1 hnil name hname havailable
  exact if_neg hne

theorem projectionFields_of_not_requested (h : ∀ name ∈ c.projection, name ∉ available e c) :
    projectionFields e c = available e c :=
  if_pos (requested_eq_nil_iff.2 h)

/-- Only available columns are selected. -/
theorem projectionFields_subset_available : projectionFields e c ⊆ available e c := by
  intro name hname
  by_cases h : ∃ name ∈ c.projection, name ∈ available e c
  · rw [projectionFields_of_requested h, mem_requested] at hname
    exact hname.2
  · push Not at h
    rwa [projectionFields_of_not_requested h] at hname

/-- Columns are selected unless none are available. -/
theorem projectionFields_eq_nil_iff_available :
    projectionFields e c = [] ↔ available e c = [] := by
  constructor
  · intro hnil
    by_cases h : ∃ name ∈ c.projection, name ∈ available e c
    · rw [projectionFields_of_requested h, requested_eq_nil_iff] at hnil
      obtain ⟨name, hname, havailable⟩ := h
      exact absurd havailable (hnil name hname)
    · push Not at h
      rwa [projectionFields_of_not_requested h] at hnil
  · intro hnil
    have hsubset := projectionFields_subset_available (e := e) (c := c)
    rw [hnil] at hsubset
    exact List.subset_nil.1 hsubset

/-- A request that is available as a whole is kept without its repetitions. -/
theorem projectionFields_of_subset (h : c.projection ⊆ available e c)
    (hnil : c.projection = [] → available e c = []) :
    projectionFields e c = c.projection.eraseDups := by
  by_cases hprojection : c.projection = []
  · rw [projectionFields_of_not_requested (by simp [hprojection]), hprojection, hnil hprojection]
    rfl
  · obtain ⟨name, hname⟩ := List.exists_mem_of_ne_nil _ hprojection
    rw [projectionFields_of_requested ⟨name, hname, h hname⟩, requested,
      List.filter_eq_self.2 fun name hname => decide_eq_true (h hname)]

/-- If an available column is requested, the requested columns that are available are
    selected, each once, in the order of their first requests; otherwise all available
    columns are, as they stand. So only available columns are selected, under a grouping
    only grouping columns, and some unless none are available. To request the selected
    columns selects their first occurrences. -/
theorem projectionFields_requested_or_available (e : Entity) (c : Clauses) :
    ((∃ name ∈ c.projection, name ∈ available e c) → ∀ names,
        projectionFields e c = names ↔
          FirstOccurrences (· ∈ available e c) c.projection names) ∧
      ((∀ name ∈ c.projection, name ∉ available e c) →
        projectionFields e c = available e c) ∧
      (∀ name ∈ projectionFields e c, name ∈ available e c) ∧
      (c.groupBy ≠ [] → ∀ name ∈ projectionFields e c, name ∈ c.groupBy) ∧
      (projectionFields e c = [] → available e c = []) ∧
      ∀ names, projectionFields e { c with projection := projectionFields e c } = names ↔
        FirstOccurrences (fun _ => True) (projectionFields e c) names := by
  refine ⟨?_, projectionFields_of_not_requested, ?_, ?_, ?_, ?_⟩
  · intro h names
    rw [projectionFields_of_requested h]
    exact (firstOccurrences_requested _ _).eq_iff
  · exact fun name hname => projectionFields_subset_available hname
  · intro hgroup name hname
    rw [← available_of_groupBy (e := e) hgroup]
    exact projectionFields_subset_available hname
  · exact projectionFields_eq_nil_iff_available.1
  · intro names
    -- The grouping is the same, so the selected columns are available.
    have hself : projectionFields e { c with projection := projectionFields e c } =
        (projectionFields e c).eraseDups :=
      projectionFields_of_subset (c := { c with projection := projectionFields e c })
        projectionFields_subset_available projectionFields_eq_nil_iff_available.1
    rw [hself]
    apply FirstOccurrences.eq_iff
    simpa using firstOccurrences_eraseDups (fun _ => true) (projectionFields e c)

/-- Invoices by region and year, with the region named twice. -/
def invoicesBy (projection : List String) : Clauses where
  groupBy := ["Region", "Year", "Region"]
  projection := projection

/-- A request with a repetition and a column outside of the grouping, and a request for
    nothing that is there. -/
theorem projectionFields_requested_or_available_invoices :
    (∃ name ∈ (invoicesBy ["Year", "Total", "Region", "Year"]).projection,
        name ∈ available { table := "Invoice" }
          (invoicesBy ["Year", "Total", "Region", "Year"])) ∧
      projectionFields { table := "Invoice" } (invoicesBy ["Year", "Total", "Region", "Year"]) =
        ["Year", "Region"] ∧
      (∀ name ∈ (invoicesBy ["Total"]).projection,
        name ∉ available { table := "Invoice" } (invoicesBy ["Total"])) ∧
      projectionFields { table := "Invoice" } (invoicesBy ["Total"]) =
        ["Region", "Year", "Region"] := by
  have hrequested : ∃ name ∈ (invoicesBy ["Year", "Total", "Region", "Year"]).projection,
      name ∈ available { table := "Invoice" }
        (invoicesBy ["Year", "Total", "Region", "Year"]) := by
    exact ⟨"Year", by decide, by decide⟩
  have hnone : ∀ name ∈ (invoicesBy ["Total"]).projection,
      name ∉ available { table := "Invoice" } (invoicesBy ["Total"]) := by decide
  have hfirst : FirstOccurrences (· ∈ ["Region", "Year", "Region"])
      ["Year", "Total", "Region", "Year"] ["Year", "Region"] := by
    refine ⟨fun name => ?_, by decide, by decide⟩
    by_cases hyear : name = "Year"
    · simp [hyear]
    · by_cases hregion : name = "Region"
      · simp [hregion]
      · simp [hyear, hregion]
  obtain ⟨hkept, -⟩ := projectionFields_requested_or_available { table := "Invoice" }
    (invoicesBy ["Year", "Total", "Region", "Year"])
  obtain ⟨-, hall, -⟩ := projectionFields_requested_or_available { table := "Invoice" }
    (invoicesBy ["Total"])
  exact ⟨hrequested, (hkept hrequested _).2 hfirst, hnone, hall hnone⟩

end SqlSelect
