import Mathlib.Data.List.Nodup
import SqlSelect.Proofs.Document.TomlValues

/-!
# Tables under headers

A table can be written in braces or under a header of its own, and a list of tables under
one header for each of them. Whichever tables a layout puts under headers, the sections
are put together to the same tables, with the members under headers behind the others.

## Main definitions

* `Toml.Layout`: which tables stand under headers;
* `Toml.memberSections`: the sections of a table's members;
* `Toml.memberEntries`: what they are put together to.

## Main statements

* `Toml.foldlM_addSection?_memberSections`: the sections are put together.
-/

namespace SqlSelect.Toml

/-- Says which tables stand under headers, by their paths. -/
abbrev Layout := List String → Bool

/-- The layout of what is below a key. -/
def Layout.below (layout : Layout) (key : String) : Layout := fun path => layout (key :: path)

def isTable : Tree → Bool
  | .table _ => true
  | _ => false

/-- A tree that may stand under headers: a table, or a list of some tables. -/
def isTabular : Tree → Bool
  | .table _ => true
  | .list items => !items.isEmpty && items.all isTable
  | _ => false

/-- A member is put under a header, or headers. -/
def headed (layout : Layout) (m : String × Tree) : Bool := layout [m.1] && isTabular m.2

/-- The members that are not put under headers. -/
def plainMembers (layout : Layout) (members : List (String × Tree)) : List (String × Tree) :=
  members.filter fun m => !headed layout m

/-- A section whose key has another part in front. -/
def Section.under (key : String) (s : Section) : Section := { s with key := key :: s.key }

mutual

/-- The sections of a tree that stands under headers, with their keys below its own. -/
def treeSections (layout : Layout) : Tree → List Section
  | .table members =>
    ⟨.table, [], plainAssignments (plainMembers layout members)⟩ :: memberSections layout members
  | .list items => elementSections layout items
  | _ => []

/-- The sections of the tables of a list. -/
def elementSections (layout : Layout) : List Tree → List Section
  | [] => []
  | .table members :: rest =>
    ⟨.element, [], plainAssignments (plainMembers layout members)⟩ ::
      (memberSections layout members ++ elementSections layout rest)
  | _ :: rest => elementSections layout rest

/-- The sections of members, those that are put under headers. -/
def memberSections (layout : Layout) : List (String × Tree) → List Section
  | [] => []
  | (key, t) :: rest =>
    (if headed layout (key, t) then (treeSections (layout.below key) t).map (.under key)
      else []) ++ memberSections layout rest

end

mutual

/-- What the sections of a tree are put together to. -/
def treeNode (layout : Layout) : Tree → Node
  | .table members =>
    .table .header (plainEntries (plainMembers layout members) ++ headedEntries layout members)
  | .list items => .tables (elementEntries layout items)
  | t => .value t

def elementEntries (layout : Layout) : List Tree → List Entries
  | [] => []
  | .table members :: rest =>
    (plainEntries (plainMembers layout members) ++ headedEntries layout members) ::
      elementEntries layout rest
  | _ :: rest => elementEntries layout rest

/-- The entries of the members that are put under headers. -/
def headedEntries (layout : Layout) : List (String × Tree) → Entries
  | [] => []
  | (key, t) :: rest =>
    (if headed layout (key, t) then [(key, treeNode (layout.below key) t)] else []) ++
      headedEntries layout rest

end

/-- The entries of a table: first the plain members, then those under headers. -/
def memberEntries (layout : Layout) (members : List (String × Tree)) : Entries :=
  plainEntries (plainMembers layout members) ++ headedEntries layout members

/-! ### One section -/

section

variable {entries : Entries} {key : String} (hkey : key ∉ entries.map Prod.fst)

include hkey

theorem lookup_append_singleton (node : Node) :
    (entries ++ [(key, node)]).lookup key = some node := by
  rw [List.lookup_append, lookup_eq_none hkey, Option.none_or, List.lookup_cons_self]

theorem replace_append_singleton (node node' : Node) :
    replace key node' (entries ++ [(key, node)]) = entries ++ [(key, node')] := by
  have hsame : entries.map (fun e => if e.1 == key then (key, node') else e) = entries := by
    refine (List.map_congr_left ?_).trans (List.map_id entries)
    intro e he
    have hne : e.1 ≠ key := by
      rintro rfl
      exact hkey (List.mem_map_of_mem he)
    simp [hne]
  rw [replace, List.map_append, hsame]
  simp

theorem addSection?_table {members : List (String × Tree)}
    (h : (members.map Prod.fst).Nodup) :
    addSection? entries ⟨.table, [key], plainAssignments members⟩ =
      some (entries ++ [(key, .table .header (plainEntries members))]) := by
  have hassign : assignAll? (plainAssignments members) [] = some (plainEntries members) :=
    assignAll?_plain (by simpa using h)
  simp [addSection?, extendAt?, addTable?, lookup_eq_none hkey, hassign]

theorem addSection?_element {members : List (String × Tree)}
    (h : (members.map Prod.fst).Nodup) :
    addSection? entries ⟨.element, [key], plainAssignments members⟩ =
      some (entries ++ [(key, .tables [plainEntries members])]) := by
  have hassign : assignAll? (plainAssignments members) [] = some (plainEntries members) :=
    assignAll?_plain (by simpa using h)
  simp [addSection?, extendAt?, addElement?, lookup_eq_none hkey, hassign]

theorem addSection?_next {members : List (String × Tree)} (h : (members.map Prod.fst).Nodup)
    (elements : List Entries) :
    addSection? (entries ++ [(key, .tables elements)])
        ⟨.element, [key], plainAssignments members⟩ =
      some (entries ++ [(key, .tables (elements ++ [plainEntries members]))]) := by
  have hassign : assignAll? (plainAssignments members) [] = some (plainEntries members) :=
    assignAll?_plain (by simpa using h)
  simp [addSection?, extendAt?, addElement?, lookup_append_singleton hkey, hassign,
    replace_append_singleton hkey]

/-- A section below a table is added to the entries of the table. -/
theorem addSection?_under_table (origin : Origin) (inner : Entries) {s : Section}
    (hs : s.key ≠ []) : addSection? (entries ++ [(key, .table origin inner)]) (s.under key) =
      (addSection? inner s).map fun inner => entries ++ [(key, .table origin inner)] := by
  have hextend : ∀ change k path,
      extendAt? change (key :: k :: path) (entries ++ [(key, .table origin inner)]) =
        (extendAt? change (k :: path) inner).map
          fun inner => entries ++ [(key, .table origin inner)] := by
    intro change k path
    rw [extendAt?, lookup_append_singleton hkey]
    · simp only [Option.bind_eq_bind]
      cases extendAt? change (k :: path) inner <;> simp [replace_append_singleton hkey]
    · exact List.cons_ne_nil k path
  obtain ⟨kind, path, assignments⟩ := s
  obtain ⟨k, path, rfl⟩ := List.exists_cons_of_ne_nil hs
  exact hextend _ k path

/-- A section below a list of tables is added to the entries of the latest. -/
theorem addSection?_under_tables (elements : List Entries) (latest : Entries) {s : Section}
    (hs : s.key ≠ []) :
    addSection? (entries ++ [(key, .tables (elements ++ [latest]))]) (s.under key) =
      (addSection? latest s).map
        fun latest => entries ++ [(key, .tables (elements ++ [latest]))] := by
  have hextend : ∀ change k path,
      extendAt? change (key :: k :: path) (entries ++ [(key, .tables (elements ++ [latest]))]) =
        (extendAt? change (k :: path) latest).map
          fun latest => entries ++ [(key, .tables (elements ++ [latest]))] := by
    intro change k path
    rw [extendAt?, lookup_append_singleton hkey]
    · simp only [List.getLast?_append, List.getLast?_singleton, Option.some_or,
        List.dropLast_concat, Option.bind_eq_bind, Option.bind_some]
      cases extendAt? change (k :: path) latest <;> simp [replace_append_singleton hkey]
    · exact List.cons_ne_nil k path
  obtain ⟨kind, path, assignments⟩ := s
  obtain ⟨k, path, rfl⟩ := List.exists_cons_of_ne_nil hs
  exact hextend _ k path

end

/-! ### All sections -/

/-- Sections below a key are added where each of them is, one after the other. -/
theorem foldlM_addSection?_under {key : String} (place : Entries → Entries)
    {sections : List Section}
    (hstep : ∀ inner, ∀ s ∈ sections,
      addSection? (place inner) (s.under key) = (addSection? inner s).map place)
    (inner : Entries) :
    (sections.map (.under key)).foldlM addSection? (place inner) =
      (sections.foldlM addSection? inner).map place := by
  induction sections generalizing inner with
  | nil => rfl
  | cons s sections ih =>
    have hfirst := hstep inner s List.mem_cons_self
    rw [List.map_cons, List.foldlM_cons, List.foldlM_cons, hfirst]
    cases addSection? inner s with
    | none => rfl
    | some entries => exact ih (fun inner s hs => hstep inner s (List.mem_cons_of_mem _ hs)) entries

theorem key_ne_nil_of_mem_memberSections {layout : Layout} {members : List (String × Tree)}
    {s : Section} (h : s ∈ memberSections layout members) : s.key ≠ [] := by
  induction members with
  | nil => simp [memberSections] at h
  | cons m members ih =>
    rw [memberSections, List.mem_append] at h
    obtain h | h := h
    · split at h
      · obtain ⟨s, -, rfl⟩ := List.mem_map.1 h
        exact List.cons_ne_nil _ _
      · cases h
    · exact ih h

section

variable {layout : Layout} {entries : Entries} {members : List (String × Tree)}

/-- The members of a table that are put under headers have other keys than the plain
    ones. -/
theorem headed_key_not_mem_plain (h : (members.map Prod.fst).Nodup) {m : String × Tree}
    (hm : m ∈ members) (hheaded : headed layout m = true) :
    m.1 ∉ (plainEntries (plainMembers layout members)).map Prod.fst := by
  intro hmem
  have hkeys : (plainEntries (plainMembers layout members)).map Prod.fst =
      (plainMembers layout members).map Prod.fst := by
    simp [plainEntries]
  rw [hkeys] at hmem
  obtain ⟨m', hm', heq⟩ := List.mem_map.1 hmem
  obtain ⟨hmem', hplain⟩ := List.mem_filter.1 hm'
  obtain rfl := List.inj_on_of_nodup_map h hmem' hm heq
  simp [hheaded] at hplain

theorem nodup_plainMembers (h : (members.map Prod.fst).Nodup) :
    ((plainMembers layout members).map Prod.fst).Nodup :=
  (List.filter_sublist.map _).nodup h

/-- Members under headers can be added to entries that have none of their keys. -/
def Fresh (layout : Layout) (members : List (String × Tree)) (entries : Entries) : Prop :=
  ∀ m ∈ members, headed layout m = true → m.1 ∉ entries.map Prod.fst

theorem fresh_plain (h : (members.map Prod.fst).Nodup) :
    Fresh layout members (plainEntries (plainMembers layout members)) :=
  fun _ hm hheaded => headed_key_not_mem_plain h hm hheaded

end

section

variable {key : String} {entries : Entries} (hkey : key ∉ entries.map Prod.fst)
  (layout : Layout) (members : List (String × Tree))

include hkey

/-- The sections below a table are added to the table. -/
theorem foldlM_addSection?_under_table (inner : Entries) :
    ((memberSections layout members).map (.under key)).foldlM addSection?
        (entries ++ [(key, .table .header inner)]) =
      ((memberSections layout members).foldlM addSection? inner).map
        fun inner => entries ++ [(key, .table .header inner)] := by
  refine foldlM_addSection?_under (fun inner => entries ++ [(key, .table .header inner)]) ?_ inner
  intro inner s hs
  exact addSection?_under_table hkey .header inner (key_ne_nil_of_mem_memberSections hs)

/-- The sections below a list of tables are added to the latest of them. -/
theorem foldlM_addSection?_under_tables (elements : List Entries) (latest : Entries) :
    ((memberSections layout members).map (.under key)).foldlM addSection?
        (entries ++ [(key, .tables (elements ++ [latest]))]) =
      ((memberSections layout members).foldlM addSection? latest).map
        fun latest => entries ++ [(key, .tables (elements ++ [latest]))] := by
  refine foldlM_addSection?_under
    (fun latest => entries ++ [(key, .tables (elements ++ [latest]))]) ?_ latest
  intro latest s hs
  exact addSection?_under_tables hkey elements latest (key_ne_nil_of_mem_memberSections hs)

end

mutual

/-- The sections of a tree under a header are put together to its node. -/
theorem foldlM_addSection?_treeSections (layout : Layout) (t : Tree) (h : Writable t)
    (htabular : isTabular t = true) {key : String} {entries : Entries}
    (hkey : key ∉ entries.map Prod.fst) :
    ((treeSections layout t).map (.under key)).foldlM addSection? entries =
      some (entries ++ [(key, treeNode layout t)]) := by
  match t with
  | .table members =>
    have hmembers := foldlM_addSection?_memberSections layout members h.1 h.2 (fresh_plain h.1)
    have hunder := foldlM_addSection?_under_table hkey layout members
      (plainEntries (plainMembers layout members))
    rw [hmembers] at hunder
    rw [treeSections, List.map_cons, List.foldlM_cons, Section.under,
      addSection?_table hkey (nodup_plainMembers h.1)]
    exact hunder
  | .list (.table members :: items) =>
    obtain ⟨hnodup, hmembers⟩ := h.1
    have hmembers := foldlM_addSection?_memberSections layout members hnodup hmembers
      (fresh_plain hnodup)
    have hunder := foldlM_addSection?_under_tables hkey layout members []
      (plainEntries (plainMembers layout members))
    rw [hmembers] at hunder
    have hitems : items.all isTable = true := by simpa [isTabular, isTable] using htabular
    have hrest := foldlM_addSection?_elementSections layout items h.2 hitems
      [plainEntries (plainMembers layout members) ++ headedEntries layout members] hkey
    rw [treeSections, elementSections, List.map_cons, List.foldlM_cons, Section.under,
      addSection?_element hkey (nodup_plainMembers hnodup), Option.bind_eq_bind,
      Option.bind_some, List.map_append, List.foldlM_append]
    exact (congrArg (· >>= _) hunder).trans hrest
  | .list [] => simp [isTabular] at htabular
  | .list (.null :: _) | .list (.bool _ :: _) | .list (.int _ :: _) | .list (.float _ :: _)
  | .list (.text _ :: _) | .list (.list _ :: _) | .list (.unusable :: _) =>
    simp [isTabular, isTable] at htabular
  | .null | .bool _ | .int _ | .float _ | .text _ | .unusable => simp [isTabular] at htabular

/-- The sections of the tables of a list are put together to its further elements. -/
theorem foldlM_addSection?_elementSections (layout : Layout) (items : List Tree)
    (h : WritableItems items) (htables : items.all isTable = true) {key : String}
    {entries : Entries} (elements : List Entries) (hkey : key ∉ entries.map Prod.fst) :
    ((elementSections layout items).map (.under key)).foldlM addSection?
        (entries ++ [(key, .tables elements)]) =
      some (entries ++ [(key, .tables (elements ++ elementEntries layout items))]) := by
  match items with
  | [] => simp [elementSections, elementEntries]
  | .table members :: items =>
    obtain ⟨hnodup, hmembers⟩ := h.1
    have hmembers := foldlM_addSection?_memberSections layout members hnodup hmembers
      (fresh_plain hnodup)
    have hunder := foldlM_addSection?_under_tables hkey layout members elements
      (plainEntries (plainMembers layout members))
    rw [hmembers] at hunder
    have hitems : items.all isTable = true := by simpa [isTable] using htables
    have hrest := foldlM_addSection?_elementSections layout items h.2 hitems (elements ++
      [plainEntries (plainMembers layout members) ++ headedEntries layout members]) hkey
    rw [List.append_assoc] at hrest
    rw [elementSections, List.map_cons, List.foldlM_cons, Section.under,
      addSection?_next hkey (nodup_plainMembers hnodup), Option.bind_eq_bind,
      Option.bind_some, List.map_append, List.foldlM_append]
    exact (congrArg (· >>= _) hunder).trans hrest
  | .null :: _ | .bool _ :: _ | .int _ :: _ | .float _ :: _ | .text _ :: _ | .list _ :: _
  | .unusable :: _ => simp [isTable] at htables

/-- The sections of members are put together to their entries. -/
theorem foldlM_addSection?_memberSections (layout : Layout) (members : List (String × Tree))
    (hnodup : (members.map Prod.fst).Nodup) (h : WritableMembers members) {entries : Entries}
    (hfresh : Fresh layout members entries) :
    (memberSections layout members).foldlM addSection? entries =
      some (entries ++ headedEntries layout members) := by
  match members with
  | [] => simp [memberSections, headedEntries]
  | (key, t) :: rest =>
    obtain ⟨⟨-, ht⟩, hrest⟩ := h
    rw [List.map_cons, List.nodup_cons] at hnodup
    obtain ⟨hkey, hfresh⟩ := List.forall_mem_cons.1 hfresh
    rw [memberSections, headedEntries, List.foldlM_append]
    by_cases hheaded : headed layout (key, t) = true
    · have hfirst := foldlM_addSection?_treeSections (layout.below key) t ht
        (Bool.and_eq_true_iff.1 hheaded).2 (hkey hheaded)
      have hmore : Fresh layout rest (entries ++ [(key, treeNode (layout.below key) t)]) := by
        intro m hm hm'
        have hne : m.1 ≠ key := ne_of_mem_of_not_mem (List.mem_map_of_mem hm) hnodup.1
        simpa [hne] using hfresh m hm hm'
      rw [if_pos hheaded, if_pos hheaded, hfirst, Option.bind_eq_bind, Option.bind_some,
        foldlM_addSection?_memberSections layout rest hnodup.2 hrest hmore, List.append_assoc]
    · rw [if_neg hheaded, if_neg hheaded, List.foldlM_nil]
      exact foldlM_addSection?_memberSections layout rest hnodup.2 hrest hfresh

end

end SqlSelect.Toml
