import Mathlib.Data.List.Forall2
import SqlSelect.Document.Decoding

/-!
# Records in any spelling

A table spells a record if it holds the record's fields in some order, with or without
those that may be left out, and possibly members of other names. The fields that are
read do not depend on the order, and nothing is read from other members.

## Main definitions

* `RecordField`: a field with the values that it may have;
* `Tree.IsRecord`: the tables that spell a record.

## Main statements

* `Tree.IsRecord.exists_fields?` and `Tree.IsRecord.exists_payloadFields?`: the fields of a
  record are read, each with a value that it may have;
* `fieldOr_of_admits`: a field that may be left out is read in either case.
-/

namespace SqlSelect

/-- A field of a record: its name, the trees that spell its value, and when it may be left
    out. -/
structure RecordField where
  name : String
  spelled : Tree → Prop
  optional : Prop

namespace RecordField

/-- A field that is never left out. -/
def required (name : String) (spelled : Tree → Prop) : RecordField := ⟨name, spelled, False⟩

/-- What may be read of a field. -/
def Admits (f : RecordField) : Option Tree → Prop
  | some t => f.spelled t
  | none => f.optional

theorem admits_required {name : String} {spelled : Tree → Prop} {value : Option Tree} :
    (required name spelled).Admits value ↔ ∃ t, value = some t ∧ spelled t := by
  cases value <;> simp [Admits, required]

end RecordField

/-- A field that may be left out is read as its value, whether it is there or not. -/
theorem fieldOr_of_admits {α : Type} {default x : α} {read : Tree → Option α}
    {f : RecordField} {value : Option Tree} (h : f.Admits value)
    (hread : ∀ t, f.spelled t → read t = some x) (hdefault : f.optional → default = x) :
    fieldOr default read value = some x := by
  cases value with
  | none => exact congrArg some (hdefault h)
  | some t => exact hread t h

/-- The members of a record's fields, in order, where optional ones may be missing. -/
inductive FieldMembers : List RecordField → List (String × Tree) → Prop
  | nil : FieldMembers [] []
  | keep {f : RecordField} {fields : List RecordField} {t : Tree}
      {members : List (String × Tree)} (h : f.spelled t) (hrest : FieldMembers fields members) :
      FieldMembers (f :: fields) ((f.name, t) :: members)
  | leaveOut {f : RecordField} {fields : List RecordField} {members : List (String × Tree)}
      (h : f.optional) (hrest : FieldMembers fields members) :
      FieldMembers (f :: fields) members

/-- A table spells a record: it has members of its fields and, if the record may have them,
    members of other names, in any order. -/
inductive Tree.IsRecord (extra : Bool) (fields : List RecordField) : Tree → Prop
  | mk {known members : List (String × Tree)} (unknown : List (String × Tree))
      (hknown : FieldMembers fields known)
      (hunknown : ∀ m ∈ unknown, m.1 ∉ fields.map RecordField.name)
      (hextra : extra = true ∨ unknown = []) (hperm : members.Perm (known ++ unknown)) :
      Tree.IsRecord extra fields (.table members)

namespace FieldMembers

variable {fields : List RecordField} {members : List (String × Tree)}

theorem name_mem (h : FieldMembers fields members) :
    ∀ m ∈ members, m.1 ∈ fields.map RecordField.name := by
  induction h with
  | nil => exact List.forall_mem_nil _
  | keep _ _ ih =>
    rw [List.map_cons, List.forall_mem_cons]
    exact ⟨List.mem_cons_self, fun m hm => List.mem_cons_of_mem _ (ih m hm)⟩
  | leaveOut _ _ ih => exact fun m hm => List.mem_cons_of_mem _ (ih m hm)

theorem filter_eq_nil {name : String} (hname : ∀ m ∈ members, m.1 ≠ name) :
    (members.filter fun m => m.1 == name) = [] := by
  rw [List.filter_eq_nil_iff]
  intro m hm
  simpa using hname m hm

/-- Among the members of distinct fields there is at most one for each of them. -/
theorem exists_filter_eq (h : FieldMembers fields members)
    (hnodup : (fields.map RecordField.name).Nodup) {f : RecordField} (hf : f ∈ fields) :
    ∃ value, f.Admits value ∧
      (members.filter fun m => m.1 == f.name) = value.toList.map (f.name, ·) := by
  induction h with
  | nil => cases hf
  | @keep g fields t members hg hrest ih =>
    rw [List.map_cons, List.nodup_cons] at hnodup
    by_cases hfg : f = g
    · subst hfg
      have hnone : (members.filter fun m => m.1 == f.name) = [] := by
        refine filter_eq_nil ?_
        rintro m hm heq
        exact hnodup.1 (heq ▸ hrest.name_mem m hm)
      exact ⟨some t, hg, by simp [hnone]⟩
    · have hmem : f ∈ fields := (List.mem_cons.1 hf).resolve_left hfg
      have hne : g.name ≠ f.name := by
        intro heq
        exact hnodup.1 (heq ▸ List.mem_map_of_mem hmem)
      obtain ⟨value, hvalue, hfilter⟩ := ih hnodup.2 hmem
      refine ⟨value, hvalue, ?_⟩
      rw [List.filter_cons_of_neg (by simpa using hne), hfilter]
  | @leaveOut g fields members hg hrest ih =>
    rw [List.map_cons, List.nodup_cons] at hnodup
    by_cases hfg : f = g
    · subst hfg
      refine ⟨none, hg, filter_eq_nil ?_⟩
      rintro m hm heq
      exact hnodup.1 (heq ▸ hrest.name_mem m hm)
    · exact ih hnodup.2 ((List.mem_cons.1 hf).resolve_left hfg)

end FieldMembers

namespace Tree

theorem lookup_eq_filter (members : List (String × Tree)) (name : String) :
    members.lookup name = (members.filter fun m => m.1 == name).head?.map Prod.snd := by
  induction members with
  | nil => rfl
  | cons m members ih =>
    by_cases hm : m.1 = name
    · subst hm
      rw [List.lookup_cons_self, List.filter_cons_of_pos (by simp)]
      rfl
    · have hne : (name == m.1) = false := by simpa using Ne.symm hm
      rw [List.lookup_cons, hne, List.filter_cons_of_neg (by simpa using hm), ← ih]

namespace IsRecord

variable {extra : Bool} {fields : List RecordField}

/-- A table of the fields in their order is a record. -/
theorem of_all {members : List (String × Tree)} (h : FieldMembers fields members) :
    (table members).IsRecord extra fields :=
  .mk [] h (List.forall_mem_nil _) (.inr rfl) (by rw [List.append_nil])

variable {t : Tree} (conventions : Conventions)

/-- The fields of a record are read, whatever order they have and whatever other members
    stand between them. -/
theorem exists_fields? (h : t.IsRecord extra fields)
    (hnodup : (fields.map RecordField.name).Nodup) :
    ∃ values, t.fields? conventions (fields.map RecordField.name) = some values ∧
      List.Forall₂ RecordField.Admits fields values := by
  cases h with
  | @mk known members unknown hknown hunknown _ hperm =>
    -- For every field the table has the same members as the list of known ones.
    have hfilter : ∀ f ∈ fields, ∃ value, f.Admits value ∧
        (members.filter fun m => m.1 == f.name) = value.toList.map (f.name, ·) := by
      intro f hf
      obtain ⟨value, hvalue, hmembers⟩ := hknown.exists_filter_eq hnodup hf
      have hnone : (unknown.filter fun m => m.1 == f.name) = [] := by
        refine FieldMembers.filter_eq_nil ?_
        rintro m hm heq
        exact hunknown m hm (heq ▸ List.mem_map_of_mem hf)
      have hsame := hperm.filter fun m => m.1 == f.name
      rw [List.filter_append, hnone, List.append_nil, hmembers] at hsame
      refine ⟨value, hvalue, ?_⟩
      cases value with
      | none => exact hsame.eq_nil
      | some t => exact hsame.eq_singleton
    have honce : (fields.map RecordField.name).all
        (fun name => (members.filter fun m => m.1 == name).length ≤ 1) = true := by
      rw [List.all_map, List.all_eq_true]
      intro f hf
      obtain ⟨value, -, hmembers⟩ := hfilter f hf
      cases value <;> simp [hmembers]
    refine ⟨fields.map fun f => members.lookup f.name, ?_, ?_⟩
    · rw [fields?, if_pos honce, List.map_map]
      rfl
    · rw [List.forall₂_map_right_iff, List.forall₂_same]
      intro f hf
      obtain ⟨value, hvalue, hmembers⟩ := hfilter f hf
      have hlookup : members.lookup f.name = value := by
        rw [lookup_eq_filter, hmembers]
        cases value <;> rfl
      rwa [hlookup]

/-- The same of the payload of an alternative. -/
theorem exists_payloadFields? (h : t.IsRecord conventions.extraMembers fields)
    (hnodup : (fields.map RecordField.name).Nodup) :
    ∃ values, t.payloadFields? conventions (fields.map RecordField.name) = some values ∧
      List.Forall₂ RecordField.Admits fields values := by
  obtain ⟨values, hvalues, hadmits⟩ := h.exists_fields? conventions hnodup
  refine ⟨values, ?_, hadmits⟩
  have hother : (t.hasOther (fields.map RecordField.name) && !conventions.extraMembers) =
      false := by
    cases h with
    | @mk known members unknown hknown _ hextra hperm =>
      obtain hextra | rfl := hextra
      · simp [hextra]
      · rw [List.append_nil] at hperm
        rw [hasOther, Bool.and_eq_false_iff, List.any_eq_false]
        refine .inl fun m hm => ?_
        simpa using hknown.name_mem m (hperm.mem_iff.1 hm)
  rw [payloadFields?, hother, if_neg (by simp), hvalues]

end IsRecord

end Tree

end SqlSelect
