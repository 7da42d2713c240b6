import SqlSelect.Proofs.Document.TomlSections

/-!
# Lines of TOML texts

A table is written line by line: its plain members, and then the sections of the members
that a layout puts under headers. The lines are read one after the other, gathered into
the same sections and put together.

## Main definitions

* `Toml.print`: the text of a table in a layout.

## Main statements

* `Toml.lines?_linesText`: written lines are read;
* `Toml.read?_print`: what a text is read as in any layout.
-/

namespace SqlSelect.Toml

/-! ### Writing lines -/

/-- A line with its line break. -/
def lineText : Line → List Char
  | .header .table key => '[' :: (pathText key ++ [']', '\n'])
  | .header .element key => '[' :: '[' :: (pathText key ++ [']', ']', '\n'])
  | .assignment key t => pathText key ++ ' ' :: '=' :: ' ' :: (inlineText t ++ ['\n'])

def linesText (ls : List Line) : List Char := ls.flatMap lineText

def assignmentLines (assignments : List (List String × Tree)) : List Line :=
  assignments.map fun a => .assignment a.1 a.2

/-- The header of a section and the assignments under it. -/
def Section.lines (s : Section) : List Line := .header s.kind s.key :: assignmentLines s.assignments

/-- The lines of a table. -/
def tableLines (layout : Layout) (members : List (String × Tree)) : List Line :=
  assignmentLines (plainAssignments (plainMembers layout members)) ++
    (memberSections layout members).flatMap Section.lines

/-- The text of a table, with those of its tables under headers that the layout says. -/
def print (layout : Layout) (members : List (String × Tree)) : String :=
  .ofList (linesText (tableLines layout members))

/-! ### Reading lines -/

/-- A dotted key that can be written and read: it has some parts, but not too many, and
    they need no quotes. -/
structure IsPath (path : List String) : Prop where
  ne_nil : path ≠ []
  bare : ∀ key ∈ path, IsBare key
  length_le : path.length ≤ nestingLimit

/-- A line that can be written and read. -/
def Line.Fits : Line → Prop
  | .header _ key => IsPath key
  | .assignment key t => IsPath key ∧ Writable t ∧ t.depth ≤ nestingLimit

namespace IsPath

variable {path : List String} (h : IsPath path)

include h

theorem head_pathText : ∃ c tail, pathText path = c :: tail ∧ isKeyChar c = true := by
  obtain ⟨key, path, rfl⟩ := List.exists_cons_of_ne_nil h.ne_nil
  obtain ⟨c, tail, hkey, hc⟩ := (h.bare key List.mem_cons_self).exists_cons
  cases path with
  | nil => exact ⟨c, tail, hkey, hc⟩
  | cons k path => exact ⟨c, _, by rw [pathText, hkey]; rfl, hc⟩

/-- A path is read up to the bracket behind it. -/
theorem key?_bracket (rest : List Char) :
    key? (pathText path ++ ']' :: rest) = some (path, ']' :: rest) := by
  have hskip : skipSpace (']' :: rest) = ']' :: rest := skipSpace_cons (by decide) rest
  have hend : KeyEnd (']' :: rest) := .cons (by decide) rest
  have hnone : Spaces [] := by simp [Spaces]
  have hread := key?_pathText h.ne_nil h.bare h.length_le hend (by simp [hskip]) hnone
  rwa [hskip] at hread

/-- A path is read up to the equals sign behind it. -/
theorem key?_equals (rest : List Char) :
    key? (pathText path ++ ' ' :: '=' :: rest) = some (path, '=' :: rest) := by
  have hskip : skipSpace (' ' :: '=' :: rest) = '=' :: rest := rfl
  have hend : KeyEnd (' ' :: '=' :: rest) := .cons (by decide) _
  have hnone : Spaces [] := by simp [Spaces]
  have hread := key?_pathText h.ne_nil h.bare h.length_le hend (by simp [hskip]) hnone
  rwa [hskip] at hread

end IsPath

theorem lineEnd?_newline (rest : List Char) : lineEnd? ('\n' :: rest) = some rest := rfl

theorem header?_element {path : List String} (h : IsPath path) (rest : List Char) :
    header? ('[' :: (pathText path ++ ']' :: ']' :: '\n' :: rest)) =
      some (.header .element path, rest) := by
  simp [header?, h.key?_bracket, after?, lineEnd?_newline]

theorem header?_table {path : List String} (h : IsPath path) (rest : List Char) :
    header? (pathText path ++ ']' :: '\n' :: rest) = some (.header .table path, rest) := by
  obtain ⟨c, tail, htext, hc⟩ := h.head_pathText
  have hread := h.key?_bracket ('\n' :: rest)
  rw [htext, List.cons_append] at hread ⊢
  rw [header?]
  · simp [hread, after?, lineEnd?_newline]
  · rintro _ heq
    obtain ⟨rfl, -⟩ := List.cons.inj heq
    simp [isKeyChar] at hc

theorem assignment?_eq {path : List String} (hpath : IsPath path) {t : Tree} (ht : Writable t)
    (hdepth : t.depth ≤ nestingLimit) (rest : List Char) :
    assignment? (pathText path ++ ' ' :: '=' :: ' ' :: (inlineText t ++ '\n' :: rest)) =
      some (.assignment path t, rest) := by
  have hskip : skipSpace (' ' :: (inlineText t ++ '\n' :: rest)) = inlineText t ++ '\n' :: rest :=
    (skipTrivia_inlineText ht _).2
  have hvalue : readValue (2 * (' ' :: (inlineText t ++ '\n' :: rest)).length + 2) nestingLimit
      (inlineText t ++ '\n' :: rest) = some (t, '\n' :: rest) := by
    refine readValue_inlineText t ht ?_ hdepth (.cons (by decide) _)
    simp only [List.length_cons, List.length_append]
    omega
  rw [assignment?, hpath.key?_equals]
  simp only [Option.bind_eq_bind, Option.bind_some, after?, if_true, hskip, hvalue,
    lineEnd?_newline]

/-- One line is read, and then the lines behind it. -/
theorem lines?_lineText {l : Line} (h : l.Fits) (fuel : Nat) (rest : List Char) :
    lines? (fuel + 1) (lineText l ++ rest) = (lines? fuel rest).map (l :: ·) := by
  cases l with
  | header kind path =>
    have hread : ∃ text, lineText (.header kind path) ++ rest = '[' :: text ∧
        header? text = some (.header kind path, rest) := by
      cases kind with
      | table => exact ⟨_, by simp [lineText], header?_table h rest⟩
      | element => exact ⟨_, by simp [lineText], header?_element h rest⟩
    obtain ⟨text, htext, hread⟩ := hread
    rw [htext, lines?, skipSpace_cons (by decide)]
    simp only [hread, Option.bind_eq_bind, Option.bind_some]
    exact Option.map_eq_bind.symm
  | assignment path t =>
    obtain ⟨hpath, ht, hdepth⟩ := h
    have hread := assignment?_eq hpath ht hdepth rest
    have htext : lineText (.assignment path t) ++ rest =
        pathText path ++ ' ' :: '=' :: ' ' :: (inlineText t ++ '\n' :: rest) := by
      simp [lineText]
    obtain ⟨c, tail, hhead, hc⟩ := hpath.head_pathText
    have hcontent : c ≠ '[' ∧ ¬(c = '#' ∨ c = '\n' ∨ c = '\r') := by
      refine ⟨?_, ?_⟩
      · rintro rfl
        simp [isKeyChar] at hc
      · rintro (rfl | rfl | rfl) <;> simp [isKeyChar] at hc
    rw [htext]
    rw [hhead, List.cons_append] at hread ⊢
    rw [lines?, skipSpace_cons (isSpace_of_isKeyChar hc)]
    split
    case h_1 heq => cases heq
    case h_2 heq => exact absurd (List.cons.inj heq).1 hcontent.1
    case h_3 heq =>
      obtain ⟨rfl, rfl⟩ := List.cons.inj heq
      rw [if_neg hcontent.2, hread]
      exact Option.map_eq_bind.symm

/-- Written lines are read one after the other. -/
theorem lines?_linesText {ls : List Line} (h : ∀ l ∈ ls, l.Fits) {fuel : Nat}
    (hfuel : ls.length < fuel) : lines? fuel (linesText ls) = some ls := by
  induction ls generalizing fuel with
  | nil =>
    obtain ⟨fuel, rfl⟩ := Nat.exists_eq_add_one_of_ne_zero (Nat.ne_zero_of_lt hfuel)
    rfl
  | cons l ls ih =>
    obtain ⟨fuel, rfl⟩ := Nat.exists_eq_add_one_of_ne_zero (Nat.ne_zero_of_lt hfuel)
    obtain ⟨hl, hls⟩ := List.forall_mem_cons.1 h
    have hrest := ih hls (Nat.lt_of_succ_lt_succ hfuel)
    rw [linesText] at hrest
    rw [linesText, List.flatMap_cons, lines?_lineText hl, hrest]
    rfl

/-- No line is without a character, and none starts with a byte order mark. -/
theorem head_lineText {l : Line} (h : l.Fits) : ∃ c tail, lineText l = c :: tail ∧ c ≠ '\ufeff' := by
  cases l with
  | header kind path => cases kind <;> exact ⟨'[', _, rfl, by decide⟩
  | assignment path t =>
    obtain ⟨c, tail, hhead, hc⟩ := h.1.head_pathText
    refine ⟨c, _, by rw [lineText, hhead]; rfl, ?_⟩
    rintro rfl
    revert hc
    decide

theorem length_le_length_linesText {ls : List Line} (h : ∀ l ∈ ls, l.Fits) :
    ls.length ≤ (linesText ls).length := by
  induction ls with
  | nil => exact Nat.le_refl 0
  | cons l ls ih =>
    obtain ⟨hl, hls⟩ := List.forall_mem_cons.1 h
    obtain ⟨c, tail, htext, -⟩ := head_lineText hl
    have := ih hls
    simp only [linesText, List.flatMap_cons, htext, List.length_append, List.length_cons] at this ⊢
    omega

/-- A text of lines is read as their document. -/
theorem read?_linesText {ls : List Line} (h : ∀ l ∈ ls, l.Fits) :
    read? (.ofList (linesText ls)) = document? ls := by
  have hlines := lines?_linesText h (Nat.lt_succ_of_le (length_le_length_linesText h))
  have hmark : ∀ rest, linesText ls ≠ '\ufeff' :: rest := by
    intro rest heq
    cases ls with
    | nil => cases heq
    | cons l ls =>
      obtain ⟨c, tail, htext, hc⟩ := head_lineText (h l List.mem_cons_self)
      rw [linesText, List.flatMap_cons, htext] at heq
      exact hc (List.cons.inj heq).1
  rw [read?, String.toList_ofList]
  split
  case h_1 heq => exact absurd heq (hmark _)
  case h_2 => rw [hlines]; rfl

/-! ### Sections of lines -/

theorem sections_assignmentLines (assignments : List (List String × Tree)) (ls : List Line) :
    sections (assignmentLines assignments ++ ls) =
      (assignments ++ (sections ls).1, (sections ls).2) := by
  induction assignments with
  | nil => rfl
  | cons a assignments ih =>
    rw [assignmentLines] at ih
    rw [assignmentLines, List.map_cons, List.cons_append, sections, ih]
    rfl

/-- The lines of sections are gathered into them. -/
theorem sections_lines (ss : List Section) : sections (ss.flatMap Section.lines) = ([], ss) := by
  induction ss with
  | nil => rfl
  | cons s ss ih =>
    rw [List.flatMap_cons, Section.lines, List.cons_append, sections, sections_assignmentLines, ih,
      List.append_nil]

/-- The lines of a table are gathered into its sections and put together. -/
theorem document?_tableLines (layout : Layout) {members : List (String × Tree)}
    (h : Writable (.table members)) :
    document? (tableLines layout members) =
      some (.table (entriesTrees (memberEntries layout members))) := by
  obtain ⟨hnodup, hmembers⟩ := h
  have htop : assignAll? (plainAssignments (plainMembers layout members)) [] =
      some (plainEntries (plainMembers layout members)) :=
    assignAll?_plain (by simpa using nodup_plainMembers hnodup)
  have hsections := foldlM_addSection?_memberSections layout members hnodup hmembers
    (fresh_plain hnodup)
  rw [document?, tableLines, sections_assignmentLines, sections_lines, List.append_nil]
  simp only [Option.bind_eq_bind, Option.bind_some, htop, hsections]
  rfl

/-! ### Lines that can be read -/

theorem writableMembers_iff {members : List (String × Tree)} :
    WritableMembers members ↔ ∀ m ∈ members, IsBare m.1 ∧ Writable m.2 := by
  induction members with
  | nil => simp [WritableMembers]
  | cons m members ih => rw [WritableMembers, ih, List.forall_mem_cons]

theorem depthMembers_le_iff {members : List (String × Tree)} {n : Nat} :
    Tree.depthMembers members ≤ n ↔ ∀ m ∈ members, m.2.depth ≤ n := by
  induction members with
  | nil => simp [Tree.depthMembers]
  | cons m members ih => rw [Tree.depthMembers, Nat.max_le, ih, List.forall_mem_cons]

theorem fits_plainAssignments {layout : Layout} {members : List (String × Tree)}
    (h : WritableMembers members) (hdepth : Tree.depthMembers members ≤ nestingLimit) :
    ∀ a ∈ plainAssignments (plainMembers layout members), (Line.assignment a.1 a.2).Fits := by
  rw [plainAssignments, List.forall_mem_map]
  intro m hm
  have hmem : m ∈ members := List.mem_of_mem_filter hm
  obtain ⟨hkey, ht⟩ := writableMembers_iff.1 h m hmem
  refine ⟨⟨List.cons_ne_nil _ _, by simpa using hkey, by simp [nestingLimit]⟩, ht, ?_⟩
  exact depthMembers_le_iff.1 hdepth m hmem

/-- A section with bare keys, at most `n` for its header, and assignments that fit. -/
structure Section.Fits (n : Nat) (s : Section) : Prop where
  bare : ∀ key ∈ s.key, IsBare key
  length_le : s.key.length ≤ n
  assignments : ∀ a ∈ s.assignments, (Line.assignment a.1 a.2).Fits

theorem Section.Fits.under {n : Nat} {s : Section} (h : s.Fits n) {key : String}
    (hkey : IsBare key) : (s.under key).Fits (n + 1) where
  bare := List.forall_mem_cons.2 ⟨hkey, h.bare⟩
  length_le := Nat.succ_le_succ h.length_le
  assignments := h.assignments

theorem Section.fits_root {n : Nat} {assignments : List (List String × Tree)} (kind : HeaderKind)
    (h : ∀ a ∈ assignments, (Line.assignment a.1 a.2).Fits) :
    (Section.mk kind [] assignments).Fits n where
  bare := List.forall_mem_nil _
  length_le := Nat.zero_le n
  assignments := h

mutual

/-- The sections of a tree have shorter keys than the tree is deep. -/
theorem fits_treeSections (layout : Layout) (t : Tree) (h : Writable t) {n : Nat}
    (hdepth : t.depth ≤ n + 1) (hn : n < nestingLimit) :
    ∀ s ∈ treeSections layout t, s.Fits n := by
  match t with
  | .table members =>
    rw [Tree.depth, Nat.add_comm, Nat.add_le_add_iff_right] at hdepth
    rw [treeSections, List.forall_mem_cons]
    exact ⟨Section.fits_root .table (fits_plainAssignments h.2 (hdepth.trans hn.le)),
      fits_memberSections layout members h.2 hdepth hn.le⟩
  | .list items =>
    rw [Tree.depth, Nat.add_comm, Nat.add_le_add_iff_right] at hdepth
    rw [treeSections]
    exact fits_elementSections layout items h (Nat.le_add_right_of_le hdepth) hn
  | .null | .bool _ | .int _ | .float _ | .text _ | .unusable => simp [treeSections]

theorem fits_elementSections (layout : Layout) (items : List Tree) (h : WritableItems items)
    {n : Nat} (hdepth : Tree.depthList items ≤ n + 1) (hn : n < nestingLimit) :
    ∀ s ∈ elementSections layout items, s.Fits n := by
  match items with
  | [] => simp [elementSections]
  | .table members :: items =>
    rw [Tree.depthList, Nat.max_le, Tree.depth, Nat.add_comm, Nat.add_le_add_iff_right] at hdepth
    rw [elementSections, List.forall_mem_cons, List.forall_mem_append]
    exact ⟨Section.fits_root .element (fits_plainAssignments h.1.2 (hdepth.1.trans hn.le)),
      fits_memberSections layout members h.1.2 hdepth.1 hn.le,
      fits_elementSections layout items h.2 hdepth.2 hn⟩
  | .null :: items | .bool _ :: items | .int _ :: items | .float _ :: items | .text _ :: items
  | .list _ :: items | .unusable :: items =>
    rw [Tree.depthList, Nat.max_le] at hdepth
    simp only [elementSections]
    exact fits_elementSections layout items h.2 hdepth.2 hn

theorem fits_memberSections (layout : Layout) (members : List (String × Tree))
    (h : WritableMembers members) {n : Nat} (hdepth : Tree.depthMembers members ≤ n)
    (hn : n ≤ nestingLimit) : ∀ s ∈ memberSections layout members, s.Fits n := by
  match members with
  | [] => simp [memberSections]
  | (key, t) :: rest =>
    obtain ⟨⟨hkey, ht⟩, hrest⟩ := h
    rw [Tree.depthMembers, Nat.max_le] at hdepth
    rw [memberSections, List.forall_mem_append]
    refine ⟨?_, fits_memberSections layout rest hrest hdepth.2 hn⟩
    split
    case isFalse => exact List.forall_mem_nil _
    case isTrue hheaded =>
      -- What stands under headers is a table or a list.
      obtain ⟨n, rfl⟩ : ∃ m, n = m + 1 := by
        have hpos : 0 < t.depth := by
          cases t <;> simp [headed, isTabular, Tree.depth] at hheaded ⊢
        exact ⟨n - 1, by omega⟩
      rw [List.forall_mem_map]
      intro s hs
      exact (fits_treeSections (layout.below key) t ht hdepth.1 hn s hs).under hkey

end

theorem fits_tableLines (layout : Layout) {members : List (String × Tree)}
    (h : WritableMembers members) (hdepth : Tree.depthMembers members ≤ nestingLimit) :
    ∀ l ∈ tableLines layout members, l.Fits := by
  rw [tableLines, List.forall_mem_append, assignmentLines, List.forall_mem_map]
  refine ⟨fits_plainAssignments h hdepth, ?_⟩
  intro l hl
  obtain ⟨s, hs, hl⟩ := List.mem_flatMap.1 hl
  have hsection := fits_memberSections layout members h hdepth le_rfl s hs
  obtain rfl | hl := List.mem_cons.1 hl
  · exact ⟨key_ne_nil_of_mem_memberSections hs, hsection.bare, hsection.length_le⟩
  · obtain ⟨a, ha, rfl⟩ := List.mem_map.1 hl
    exact hsection.assignments a ha

/-- A printed table is read with the members under headers behind the others, in whatever
    layout it is printed. -/
theorem read?_print (layout : Layout) {members : List (String × Tree)}
    (h : Writable (.table members)) (hdepth : Tree.depthMembers members ≤ nestingLimit) :
    read? (print layout members) =
      some (.table (entriesTrees (memberEntries layout members))) := by
  rw [print, read?_linesText (fits_tableLines layout h.2 hdepth), document?_tableLines layout h]

end SqlSelect.Toml
