import SqlSelect.Proofs.Document.JsonReading

/-!
# Reading printed JSON

A printed tree is read back, in every style that puts spaces between tokens. What is
read is the tree itself, apart from what JSON has no notation for: a double that is
not finite comes back as null, and an integer of more than 64 bits as a double.

## Main definitions

* `JsonStyle.Spaced`: a style that writes spaces between tokens and nothing else;
* `Tree.asJson`: what is left of a tree in its JSON text.

## Main statements

* `Json.read?_print`: a printed tree is read as `Tree.asJson`.
-/

namespace SqlSelect

/-- A style that writes spaces between tokens and nothing else. -/
structure JsonStyle.Spaced (style : JsonStyle) : Prop where
  lineBreak : ∀ level, Json.Spaces (style.lineBreak level)
  afterColon : Json.Spaces style.afterColon

theorem JsonStyle.Spaced.pretty : JsonStyle.pretty.Spaced where
  lineBreak level c hc := by
    obtain rfl | hc := List.mem_cons.1 hc
    · decide
    · rw [List.eq_of_mem_replicate hc]
      decide
  afterColon := by
    intro c hc
    obtain rfl : c = ' ' := by simpa [JsonStyle.pretty] using hc
    decide

namespace Tree

mutual

/-- What is left of a tree in its JSON text. -/
def asJson : Tree → Tree
  | .int n => Json.intTree n
  | .float x => if x.isFinite then .float x else .null
  | .unusable => .null
  | .list items => .list (asJsonList items)
  | .table members => .table (asJsonMembers members)
  | t => t

def asJsonList : List Tree → List Tree
  | [] => []
  | t :: rest => t.asJson :: asJsonList rest

def asJsonMembers : List (String × Tree) → List (String × Tree)
  | [] => []
  | (name, t) :: rest => (name, t.asJson) :: asJsonMembers rest

end

end Tree

namespace Json

/-! ### Bracketed texts -/

section

variable {texts : List (List Char)} {breaks after : List Char}

/-- Items that are printed on lines of their own. -/
theorem readsItems_intercalate {ts : List Tree}
    (h : List.Forall₂ Reads texts ts) (hne : texts ≠ [])
    (hbreaks : Spaces breaks) (hafter : Spaces after) :
    ReadsItems (breaks ++ (List.intercalate (',' :: breaks) texts ++ after)) ts := by
  induction h with
  | nil => exact absurd rfl hne
  | @cons text t texts ts htext hrest ih =>
    cases hrest with
    | nil => simpa using ReadsItems.single htext hbreaks hafter
    | cons hnext hrest =>
      have hmore := ih (List.cons_ne_nil _ _)
      simpa [List.intercalate_cons_cons] using ReadsItems.cons htext hbreaks .nil hmore

theorem readsMembers_intercalate {ms : List (Option String × Tree)}
    (h : List.Forall₂ MemberText texts ms) (hne : texts ≠ [])
    (hbreaks : Spaces breaks) (hafter : Spaces after) :
    ReadsMembers (breaks ++ (List.intercalate (',' :: breaks) texts ++ after)) ms := by
  induction h with
  | nil => exact absurd rfl hne
  | @cons text m texts ms htext hrest ih =>
    cases hrest with
    | nil => simpa using ReadsMembers.single htext hbreaks hafter
    | cons hnext hrest =>
      have hmore := ih (List.cons_ne_nil _ _)
      simpa [List.intercalate_cons_cons] using ReadsMembers.cons htext hbreaks .nil hmore

/-- A bracketed text is its items between brackets, behind a break and before one. -/
theorem bracketed_of_ne_nil (style : JsonStyle) (level : Nat) (opening closing : Char)
    (hne : texts ≠ []) :
    bracketed style level opening closing texts =
      opening :: (style.lineBreak (level + 1) ++
        (List.intercalate (',' :: style.lineBreak (level + 1)) texts ++
          style.lineBreak level) ++ [closing]) := by
  simp [bracketed, hne]

variable {style : JsonStyle}

theorem reads_bracketed_list (hstyle : style.Spaced) (level : Nat) {ts : List Tree}
    (h : List.Forall₂ Reads texts ts) :
    Reads (bracketed style level '[' ']' texts) (.list ts) := by
  cases h with
  | nil => exact .nil_list .nil
  | cons htext hrest =>
    rw [bracketed_of_ne_nil style level '[' ']' (List.cons_ne_nil _ _)]
    exact .list (readsItems_intercalate (.cons htext hrest) (List.cons_ne_nil _ _)
      (hstyle.lineBreak _) (hstyle.lineBreak _))

/-- A table whose keys are all strings is that table. -/
theorem tableTree_some (ms : List (String × Tree)) :
    tableTree (ms.map fun m => (some m.1, m.2)) = .table ms := by
  have hmembers : (ms.map fun m => (some m.1, m.2)).mapM
      (fun (m : Option String × Tree) => m.1.map (·, m.2)) = some ms := by
    induction ms with
    | nil => rfl
    | cons m ms ih => simp [ih]
  rw [tableTree, hmembers]

theorem reads_bracketed_table (hstyle : style.Spaced) (level : Nat)
    {ms : List (String × Tree)}
    (h : List.Forall₂ MemberText texts (ms.map fun m => (some m.1, m.2))) :
    Reads (bracketed style level '\x7b' '\x7d' texts) (.table ms) := by
  cases ms with
  | nil =>
    cases h
    exact .nil_table .nil
  | cons m ms =>
    have hne : texts ≠ [] := by
      rintro rfl
      cases h
    rw [bracketed_of_ne_nil style level '\x7b' '\x7d' hne, ← tableTree_some]
    exact .table (readsMembers_intercalate h hne (hstyle.lineBreak _) (hstyle.lineBreak _))

end

/-! ### Printed trees -/

/-- A finite double is read as itself, and any other as null. -/
theorem reads_text (x : Double) :
    Reads (x.text floatLayout) (if x.isFinite then .float x else .null) := by
  cases x with
  | nan => exact reads_null
  | infinite negative => exact reads_null
  | finite negative m e h => exact reads_of_number? fun rest => number?_text rfl

mutual

theorem reads_printAt {style : JsonStyle} (hstyle : style.Spaced) (level : Nat) (t : Tree) :
    Reads (printAt style level t) t.asJson := by
  match t with
  | .null => exact reads_null
  | .unusable => exact reads_null
  | .bool b => exact reads_bool b
  | .int n => exact reads_of_number? fun rest => number?_ofInt n
  | .float x => exact reads_text x
  | .text s => exact reads_quoted s
  | .list items =>
    exact reads_bracketed_list hstyle level (reads_printItems hstyle (level + 1) items)
  | .table members =>
    exact reads_bracketed_table hstyle level (memberText_printMembers hstyle (level + 1) members)

theorem reads_printItems {style : JsonStyle} (hstyle : style.Spaced) (level : Nat)
    (ts : List Tree) : List.Forall₂ Reads (printItems style level ts) (Tree.asJsonList ts) := by
  match ts with
  | [] => exact .nil
  | t :: rest =>
    exact .cons (reads_printAt hstyle level t) (reads_printItems hstyle level rest)

theorem memberText_printMembers {style : JsonStyle} (hstyle : style.Spaced) (level : Nat)
    (ms : List (String × Tree)) :
    List.Forall₂ MemberText (printMembers style level ms)
      ((Tree.asJsonMembers ms).map fun m => (some m.1, m.2)) := by
  match ms with
  | [] => exact .nil
  | (name, t) :: rest =>
    refine .cons ?_ (memberText_printMembers hstyle level rest)
    have hmember := MemberText.mk (stringBody_flatMap name.toList) .nil hstyle.afterColon
      (reads_printAt hstyle level t)
    rw [string?_chars] at hmember
    simpa [quoted] using hmember

end

/-- A printed tree is read as what is left of it in its JSON text. -/
theorem read?_print {style : JsonStyle} (hstyle : style.Spaced) (t : Tree) :
    read? (print style t) = some t.asJson := by
  have hread := reads_printAt hstyle 0 t (2 * (printAt style 0 t).length + 2) [] [] (by omega)
    .nil .nil
  rw [List.nil_append, List.append_nil] at hread
  rw [read?, print, String.toList_ofList, hread]
  rfl

end Json

end SqlSelect
