import SqlSelect.Proofs.Document.Spelling
import SqlSelect.Proofs.Document.TomlLines

/-!
# Layouts of a query

Putting tables under headers reorders members, and it does so at any depth. It neither
makes a tree deeper nor changes what the tree spells, because the order of a record's
members does not count and an alternative has only one.

## Main definitions

* `Toml.LayoutFree`: a property of trees that headers do not change.

## Main statements

* `Toml.depth_tree_treeNode`: a tree under headers is as deep as before;
* `Toml.LayoutFree.isRecord`: what spells a record does so under headers;
* `Query.layoutFree_spelled`: what spells a query does so under headers.
-/

namespace SqlSelect

open SqlSelect.Tree

namespace Toml

/-! ### Trees under headers -/

/-- A member as it is read, if it is put under headers or not. -/
def arranged (layout : Layout) (m : String × Tree) : String × Tree :=
  (m.1, if headed layout m then (treeNode (layout.below m.1) m.2).tree else m.2)

theorem entriesTrees_append (as bs : Entries) :
    entriesTrees (as ++ bs) = entriesTrees as ++ entriesTrees bs := by
  induction as with
  | nil => rfl
  | cons e as ih => rw [List.cons_append, entriesTrees, entriesTrees, ih, List.cons_append]

theorem entriesTrees_headedEntries (layout : Layout) (members : List (String × Tree)) :
    entriesTrees (headedEntries layout members) =
      (members.filter (headed layout)).map (arranged layout) := by
  induction members with
  | nil => rfl
  | cons m members ih =>
    rw [headedEntries, entriesTrees_append, ih]
    by_cases hm : headed layout m = true
    · rw [if_pos hm, List.filter_cons_of_pos hm, List.map_cons, arranged, if_pos hm]
      rfl
    · rw [if_neg hm, List.filter_cons_of_neg hm]
      rfl

/-- The members of a table under headers are the members of the table in another order. -/
theorem perm_entriesTrees (layout : Layout) (members : List (String × Tree)) :
    (entriesTrees (memberEntries layout members)).Perm (members.map (arranged layout)) := by
  have hplain : (plainMembers layout members).map (arranged layout) =
      plainMembers layout members := by
    refine (List.map_congr_left ?_).trans (List.map_id _)
    intro m hm
    have hm : headed layout m = false := by simpa using (List.mem_filter.1 hm).2
    simp [arranged, hm]
  rw [memberEntries, entriesTrees_append, entriesTrees_plain, entriesTrees_headedEntries, ← hplain,
    ← List.map_append]
  exact (List.perm_append_comm.trans (List.filter_append_perm (headed layout) members)).map _

/-- The items of a list under headers are read one by one. -/
theorem elementTrees_elementEntries (layout : Layout) {items : List Tree}
    (h : items.all isTable = true) :
    elementTrees (elementEntries layout items) =
      items.map fun t => (treeNode layout t).tree := by
  induction items with
  | nil => rfl
  | cons t items ih =>
    rw [List.all_cons, Bool.and_eq_true] at h
    cases t with
    | table members => rw [elementEntries, elementTrees, ih h.2, List.map_cons, treeNode]; rfl
    | _ => simp [isTable] at h

theorem isTabular_of_isTable {t : Tree} (h : isTable t = true) : isTabular t = true := by
  cases t <;> first | rfl | simp [isTable] at h

/-! ### Depth -/

theorem depthMembers_map {members : List (String × Tree)} {f : String × Tree → String × Tree}
    (h : ∀ m ∈ members, (f m).2.depth = m.2.depth) :
    depthMembers (members.map f) = depthMembers members := by
  induction members with
  | nil => rfl
  | cons m members ih =>
    obtain ⟨hm, hrest⟩ := List.forall_mem_cons.1 h
    rw [List.map_cons, depthMembers, depthMembers, hm, ih hrest]

theorem depthMembers_perm {as bs : List (String × Tree)} (h : as.Perm bs) :
    depthMembers as = depthMembers bs := by
  refine eq_of_forall_ge_iff fun n => ?_
  rw [depthMembers_le_iff, depthMembers_le_iff]
  exact forall_congr' fun m => imp_congr_left h.mem_iff

mutual

/-- A tree under headers is as deep as it is anywhere else. -/
theorem depth_tree_treeNode (layout : Layout) (t : Tree) (h : isTabular t = true) :
    (treeNode layout t).tree.depth = t.depth := by
  match t with
  | .table members =>
    have hmembers : depthMembers (entriesTrees (memberEntries layout members)) =
        depthMembers members := by
      rw [depthMembers_perm (perm_entriesTrees layout members),
        depthMembers_map (depth_arranged layout members)]
    exact congrArg (1 + ·) hmembers
  | .list items =>
    have hitems : items.all isTable = true := (Bool.and_eq_true_iff.1 h).2
    rw [treeNode, Node.tree, elementTrees_elementEntries layout hitems]
    exact congrArg (1 + ·) (depthList_map_treeNode layout items hitems)
  | .null | .bool _ | .int _ | .float _ | .text _ | .unusable => simp [isTabular] at h

theorem depthList_map_treeNode (layout : Layout) (items : List Tree)
    (h : items.all isTable = true) :
    depthList (items.map fun t => (treeNode layout t).tree) = depthList items := by
  match items with
  | [] => rfl
  | .table members :: items =>
    rw [List.all_cons, Bool.and_eq_true] at h
    rw [List.map_cons, depthList, depthList, depth_tree_treeNode layout (.table members) rfl,
      depthList_map_treeNode layout items h.2]
  | .null :: _ | .bool _ :: _ | .int _ :: _ | .float _ :: _ | .text _ :: _ | .list _ :: _
  | .unusable :: _ => simp [isTable] at h

theorem depth_arranged (layout : Layout) (members : List (String × Tree)) :
    ∀ m ∈ members, (arranged layout m).2.depth = m.2.depth := by
  match members with
  | [] => exact List.forall_mem_nil _
  | (key, t) :: rest =>
    refine List.forall_mem_cons.2 ⟨?_, depth_arranged layout rest⟩
    rw [arranged]
    split
    case isTrue hheaded =>
      exact depth_tree_treeNode (layout.below key) t (Bool.and_eq_true_iff.1 hheaded).2
    case isFalse => rfl

end

/-! ### What trees under headers spell -/

/-- A property of trees that they keep under headers, whatever the layout. -/
def LayoutFree (spelled : Tree → Prop) : Prop :=
  ∀ layout t, isTabular t = true → spelled t → spelled (treeNode layout t).tree

namespace LayoutFree

variable {spelled : Tree → Prop}

theorem arranged (h : LayoutFree spelled) {m : String × Tree} (hm : spelled m.2)
    (layout : Layout) : spelled (arranged layout m).2 := by
  rw [Toml.arranged]
  split
  case isTrue hheaded => exact h _ _ (Bool.and_eq_true_iff.1 hheaded).2 hm
  case isFalse => exact hm

/-- What is no table and no list of tables is never under headers. -/
theorem of_not_isTabular {t : Tree} (ht : isTabular t = false) : LayoutFree (· = t) := by
  rintro layout t htabular rfl
  rw [ht] at htabular
  cases htabular

/-- An alternative has one member, which has no other place. -/
theorem variant (name : String) (h : LayoutFree spelled) :
    LayoutFree fun t => ∃ payload, t = .variant name payload ∧ spelled payload := by
  rintro layout _ - ⟨payload, rfl, hpayload⟩
  have hperm := perm_entriesTrees layout [(name, payload)]
  rw [List.map_singleton, List.perm_singleton] at hperm
  refine ⟨(Toml.arranged layout (name, payload)).2, ?_, h.arranged hpayload layout⟩
  exact congrArg Tree.table hperm

theorem eq_variant {name : String} {payload : Tree} (h : LayoutFree (· = payload)) :
    LayoutFree (· = .variant name payload) := by
  have hvariant := h.variant name
  simpa using hvariant

/-- A list of tables has its items in their order. -/
theorem isList {α : Type} {spelled : α → Tree → Prop} {xs : List α}
    (h : ∀ x ∈ xs, LayoutFree (spelled x)) : LayoutFree (IsList spelled xs) := by
  rintro layout _ htabular ⟨ts, rfl, hts⟩
  have htables : ts.all isTable = true := (Bool.and_eq_true_iff.1 htabular).2
  refine ⟨ts.map fun t => (treeNode layout t).tree, ?_, ?_⟩
  · rw [treeNode, Node.tree, elementTrees_elementEntries layout htables]
  · clear htabular
    rw [List.forall₂_map_right_iff]
    induction hts with
    | nil => exact .nil
    | @cons x t xs ts hx _ ih =>
      obtain ⟨hfirst, hrest⟩ := List.forall_mem_cons.1 h
      rw [List.all_cons, Bool.and_eq_true] at htables
      exact .cons (hfirst layout t (isTabular_of_isTable htables.1) hx) (ih hrest htables.2)

theorem eq_list {ts : List Tree} (h : ∀ t ∈ ts, LayoutFree (· = t)) :
    LayoutFree (· = .list ts) := by
  rintro layout _ htabular rfl
  have htables : ts.all isTable = true := (Bool.and_eq_true_iff.1 htabular).2
  have hitems : ∀ t ∈ ts, (treeNode layout t).tree = t := fun t ht =>
    h t ht layout t (isTabular_of_isTable (List.all_eq_true.1 htables t ht)) rfl
  rw [treeNode, Node.tree, elementTrees_elementEntries layout htables]
  exact congrArg Tree.list ((List.map_congr_left hitems).trans (List.map_id _))

/-- The members of a record may be in any order. -/
theorem isRecord {extra : Bool} {fields : List RecordField}
    (h : ∀ f ∈ fields, LayoutFree f.spelled) : LayoutFree (IsRecord extra fields) := by
  intro layout t _ hrecord
  cases hrecord with
  | @mk known members unknown hknown hunknown hextra hperm =>
    have hfields : FieldMembers fields (known.map (Toml.arranged layout)) := by
      clear hperm hunknown
      induction hknown with
      | nil => exact .nil
      | keep hspelled _ ih =>
        obtain ⟨hfirst, hrest⟩ := List.forall_mem_cons.1 h
        exact .keep (hfirst.arranged hspelled layout) (ih hrest)
      | leaveOut hoptional _ ih => exact .leaveOut hoptional (ih (List.forall_mem_cons.1 h).2)
    refine .mk (unknown.map (Toml.arranged layout)) hfields ?_ ?_ ?_
    · rw [List.forall_mem_map]
      exact hunknown
    · exact hextra.imp_right fun hnil => by rw [hnil, List.map_nil]
    · rw [← List.map_append]
      exact (perm_entriesTrees layout members).trans (hperm.map _)

end LayoutFree

end Toml

/-! ### Queries under headers -/

open Toml (LayoutFree)

mutual

theorem Value.layoutFree_encode (v : Value) : LayoutFree (· = v.encode) := by
  match v with
  | .null => exact .of_not_isTabular rfl
  | .bool _ | .int _ | .float _ | .decimal _ | .text _ | .dateTime _ =>
    exact .eq_variant (.of_not_isTabular rfl)
  | .array items => exact .eq_variant (.eq_list (Value.layoutFree_encodeList items))

theorem Value.layoutFree_encodeList (vs : List Value) :
    ∀ t ∈ encodeList vs, LayoutFree (· = t) := by
  match vs with
  | [] => exact List.forall_mem_nil _
  | v :: rest =>
    exact List.forall_mem_cons.2 ⟨v.layoutFree_encode, Value.layoutFree_encodeList rest⟩

end

theorem Tree.layoutFree_texts (names : List String) : LayoutFree (· = texts names) := by
  refine .eq_list ?_
  rw [List.forall_mem_map]
  exact fun _ _ => .of_not_isTabular rfl

theorem Expr.layoutFree_spelled (extra : Bool) (e : Expr) : LayoutFree (e.Spelled extra) := by
  induction e with
  | literal v | computed v => exact .eq_variant v.layoutFree_encode
  | field _ | foreign _ | emptyLambda => exact .eq_variant (.of_not_isTabular rfl)
  | unary e ih | lambda e ih => exact .variant _ ih
  | binary op l r ihl ihr =>
    refine .variant _ (.isRecord ?_)
    simp only [List.forall_mem_cons]
    exact ⟨.of_not_isTabular rfl, ihl, ihr, List.forall_mem_nil _⟩
  | membership l r ihl ihr =>
    refine .variant _ (.isRecord ?_)
    simp only [List.forall_mem_cons]
    exact ⟨ihl, ihr, List.forall_mem_nil _⟩

theorem Column.layoutFree_spelled (c : Column) : LayoutFree c.Spelled := by
  refine .isRecord ?_
  simp only [recordFields, List.forall_mem_cons]
  exact ⟨.of_not_isTabular rfl, .of_not_isTabular rfl, .of_not_isTabular rfl,
    List.forall_mem_nil _⟩

theorem Entity.layoutFree_spelled (e : Entity) : LayoutFree e.Spelled := by
  refine .isRecord ?_
  simp only [recordFields, List.forall_mem_cons]
  exact ⟨.of_not_isTabular rfl, .isList fun c _ => c.layoutFree_spelled, List.forall_mem_nil _⟩

theorem layoutFree_predicateSpelled (extra : Bool) (predicate : Option Expr) :
    LayoutFree (PredicateSpelled extra predicate) := by
  cases predicate with
  | none => exact .of_not_isTabular rfl
  | some p => exact p.layoutFree_spelled extra

theorem Clauses.layoutFree_spelled (extra : Bool) (c : Clauses) :
    LayoutFree (c.Spelled extra) := by
  refine .isRecord ?_
  simp only [recordFields, List.forall_mem_cons]
  exact ⟨layoutFree_predicateSpelled extra c.predicate, layoutFree_texts _, layoutFree_texts _,
    layoutFree_texts _, layoutFree_texts _, layoutFree_texts _, .of_not_isTabular rfl,
    .of_not_isTabular rfl, List.forall_mem_nil _⟩

/-- The spellings of a query stay its spellings when tables are put under headers. -/
theorem Query.layoutFree_spelled (extra : Bool) (q : Query) : LayoutFree (q.Spelled extra) := by
  refine .isRecord ?_
  simp only [recordFields, List.forall_mem_cons]
  exact ⟨q.entity.layoutFree_spelled, q.clauses.layoutFree_spelled extra, List.forall_mem_nil _⟩

end SqlSelect
