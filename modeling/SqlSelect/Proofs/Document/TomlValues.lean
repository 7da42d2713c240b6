import SqlSelect.Document.Toml.Reader
import SqlSelect.Proofs.Document.TomlScalars

/-!
# Values in TOML texts

Every tree that TOML has a notation for can be written on one line, with its lists in
brackets and its tables in braces, and is read back from there.

## Main definitions

* `Toml.Writable`: the trees that TOML has a notation for, if its keys are bare;
* `Toml.inlineText`: a value on one line.

## Main statements

* `Toml.keyParts?_pathText`: dotted keys are read part by part;
* `Toml.readValue_inlineText`: a value is read as itself.
-/

namespace SqlSelect.Toml

/-! ### Writing values -/

/-- A key that needs no quotes. -/
def IsBare (key : String) : Prop := key.toList ≠ [] ∧ ∀ c ∈ key.toList, isKeyChar c = true

instance (key : String) : Decidable (IsBare key) :=
  decidable_of_iff (key.toList.isEmpty = false ∧ key.toList.all isKeyChar = true)
    (by simp [IsBare])

mutual

/-- A tree that can be written: it has no null, no integer of more than 64 bits and no
    double but finite ones, and the keys of its tables are bare and distinct. -/
def Writable : Tree → Prop
  | .null | .unusable => False
  | .bool _ | .text _ => True
  | .int n => (Int64.ofInt n).toInt = n
  | .float x => x.isFinite = true
  | .list items => WritableItems items
  | .table members => (members.map Prod.fst).Nodup ∧ WritableMembers members

def WritableItems : List Tree → Prop
  | [] => True
  | t :: rest => Writable t ∧ WritableItems rest

def WritableMembers : List (String × Tree) → Prop
  | [] => True
  | (key, t) :: rest => (IsBare key ∧ Writable t) ∧ WritableMembers rest

end

mutual

/-- A value on one line. -/
def inlineText : Tree → List Char
  | .null | .unusable => []
  | .bool b => if b then ['t', 'r', 'u', 'e'] else ['f', 'a', 'l', 's', 'e']
  | .int n => Digits.ofInt n
  | .float x => x.text Json.floatLayout
  | .text s => quoted s
  | .list items => '[' :: itemsText items
  | .table [] => ['\x7b', '\x7d']
  | .table members => '\x7b' :: ' ' :: membersText members

/-- The items of a list with commas between them and the closing bracket. -/
def itemsText : List Tree → List Char
  | [] => [']']
  | [t] => inlineText t ++ [']']
  | t :: u :: rest => inlineText t ++ ',' :: ' ' :: itemsText (u :: rest)

/-- The members of a table with commas between them and the closing brace. -/
def membersText : List (String × Tree) → List Char
  | [] => ['\x7d']
  | [(key, t)] => key.toList ++ ' ' :: '=' :: ' ' :: (inlineText t ++ [' ', '\x7d'])
  | (key, t) :: m :: rest =>
    key.toList ++ ' ' :: '=' :: ' ' :: (inlineText t ++ ',' :: ' ' :: membersText (m :: rest))

end

/-- The parts of a dotted key. -/
def pathText : List String → List Char
  | [] => []
  | [key] => key.toList
  | key :: k :: path => key.toList ++ '.' :: pathText (k :: path)

/-! ### Keys -/

/-- Blanks within a line. -/
def Spaces (cs : List Char) : Prop := ∀ c ∈ cs, isSpace c = true

theorem skipSpace_append {spaces : List Char} (h : Spaces spaces) (rest : List Char) :
    skipSpace (spaces ++ rest) = skipSpace rest :=
  List.dropWhile_append_of_pos h

theorem skipSpace_cons {c : Char} (hc : isSpace c = false) (rest : List Char) :
    skipSpace (c :: rest) = c :: rest := by
  rw [skipSpace, List.dropWhile_cons_of_neg (by simp [hc])]

/-- A text that a bare key does not go on with. -/
def KeyEnd (rest : List Char) : Prop := ∀ c ∈ rest.head?, isKeyChar c = false

theorem KeyEnd.cons {c : Char} (h : isKeyChar c = false) (rest : List Char) :
    KeyEnd (c :: rest) := by
  simpa [KeyEnd] using h

theorem isSpace_of_isKeyChar {c : Char} (hc : isKeyChar c = true) : isSpace c = false := by
  rw [isSpace, Bool.or_eq_false_iff, beq_eq_false_iff_ne, beq_eq_false_iff_ne]
  refine ⟨?_, ?_⟩ <;> (rintro rfl; simp [isKeyChar] at hc)

theorem IsBare.exists_cons {key : String} (h : IsBare key) :
    ∃ c tail, key.toList = c :: tail ∧ isKeyChar c = true := by
  obtain ⟨c, tail, hkey⟩ := List.exists_cons_of_ne_nil h.1
  exact ⟨c, tail, hkey, h.2 c (hkey ▸ List.mem_cons_self)⟩

/-- A bare key starts with no blank and is read up to its end. -/
theorem keyPart?_append {key : String} (hkey : IsBare key) {rest : List Char}
    (hrest : KeyEnd rest) : keyPart? (skipSpace (key.toList ++ rest)) = some (key, rest) := by
  have hdrop : rest.takeWhile isKeyChar = [] ∧ rest.dropWhile isKeyChar = rest := by
    cases rest with
    | nil => exact ⟨rfl, rfl⟩
    | cons c rest =>
      have hc : isKeyChar c = false := hrest c rfl
      simp [hc]
  have hskip : skipSpace (key.toList ++ rest) = key.toList ++ rest := by
    obtain ⟨c, tail, hcons, hc⟩ := hkey.exists_cons
    rw [hcons, List.cons_append, skipSpace_cons (isSpace_of_isKeyChar hc)]
  have htake : (key.toList ++ rest).takeWhile isKeyChar = key.toList := by
    rw [List.takeWhile_append_of_pos hkey.2, hdrop.1, List.append_nil]
  have hrest : (key.toList ++ rest).dropWhile isKeyChar = rest := by
    rw [List.dropWhile_append_of_pos hkey.2, hdrop.2]
  rw [hskip, keyPart?, htake]
  split
  case h_1 heq => exact absurd heq hkey.1
  case h_2 name heq => rw [String.ofList_toList, hrest]

/-- A dotted key of bare parts is read up to its end. -/
theorem keyParts?_pathText {path : List String} (hne : path ≠ [])
    (hpath : ∀ key ∈ path, IsBare key) {tail : List Char} (hend : KeyEnd tail)
    (hpoint : '.' ∉ (skipSpace tail).head?) {spaces : List Char} (hspaces : Spaces spaces)
    {fuel : Nat} (hfuel : path.length ≤ fuel) :
    keyParts? fuel (spaces ++ (pathText path ++ tail)) = some (path, skipSpace tail) := by
  induction path generalizing spaces fuel with
  | nil => exact absurd rfl hne
  | cons key path ih =>
    obtain ⟨fuel, rfl⟩ := Nat.exists_eq_add_one_of_ne_zero (Nat.ne_zero_of_lt hfuel)
    obtain ⟨hkey, hpath⟩ := List.forall_mem_cons.1 hpath
    rw [keyParts?, skipSpace_append hspaces]
    cases path with
    | nil =>
      rw [pathText, keyPart?_append hkey hend]
      simp only [Option.bind_eq_bind, Option.bind_some]
      split
      case h_1 heq => simp [heq] at hpoint
      case h_2 => rfl
    | cons k path =>
      have hread : keyParts? fuel ([] ++ (pathText (k :: path) ++ tail)) =
          some (k :: path, skipSpace tail) :=
        ih (List.cons_ne_nil _ _) hpath (by simp [Spaces]) (by simpa using hfuel)
      rw [pathText, List.append_assoc, List.cons_append,
        keyPart?_append hkey (.cons (by decide) _)]
      simp only [Option.bind_eq_bind, Option.bind_some, skipSpace_cons (c := '.') (by decide)]
      rw [List.nil_append] at hread
      rw [hread]
      rfl

theorem length_le_length_pathText {path : List String} (hpath : ∀ key ∈ path, IsBare key) :
    path.length ≤ (pathText path).length := by
  induction path with
  | nil => exact Nat.le_refl 0
  | cons key path ih =>
    obtain ⟨hkey, hpath⟩ := List.forall_mem_cons.1 hpath
    have hpos : 0 < key.toList.length := List.length_pos_of_ne_nil hkey.1
    have := ih hpath
    cases path with
    | nil =>
      rw [pathText]
      exact hpos
    | cons k path =>
      simp only [pathText, List.length_append, List.length_cons] at this ⊢
      omega

/-- A dotted key that is short enough is read up to its end. -/
theorem key?_pathText {path : List String} (hne : path ≠ []) (hpath : ∀ key ∈ path, IsBare key)
    (hlength : path.length ≤ nestingLimit) {tail : List Char} (hend : KeyEnd tail)
    (hpoint : '.' ∉ (skipSpace tail).head?) {spaces : List Char} (hspaces : Spaces spaces) :
    key? (spaces ++ (pathText path ++ tail)) = some (path, skipSpace tail) := by
  have hle := length_le_length_pathText hpath
  have hfuel : path.length ≤ (spaces ++ (pathText path ++ tail)).length + 1 := by
    simp only [List.length_append]
    omega
  rw [key?, keyParts?_pathText hne hpath hend hpoint hspaces hfuel]
  simp only [Option.bind_eq_bind, Option.bind_some, if_pos hlength]

/-- The key of an assignment is read up to the equals sign. -/
theorem key?_assigned {key : String} (hkey : IsBare key) (rest : List Char)
    {spaces : List Char} (hspaces : Spaces spaces) :
    key? (spaces ++ (key.toList ++ ' ' :: '=' :: rest)) = some ([key], '=' :: rest) := by
  have hskip : skipSpace (' ' :: '=' :: rest) = '=' :: rest := rfl
  have hend : KeyEnd (' ' :: '=' :: rest) := .cons (by decide) _
  have hread := key?_pathText (List.cons_ne_nil key []) (by simpa using hkey)
    (by simp [nestingLimit]) hend (by simp [hskip]) hspaces
  rwa [pathText, hskip] at hread

/-! ### Plain assignments -/

/-- Members as assignments of plain keys. -/
def plainAssignments (members : List (String × Tree)) : List (List String × Tree) :=
  members.map fun m => ([m.1], m.2)

/-- The entries of plain members. -/
def plainEntries (members : List (String × Tree)) : Entries :=
  members.map fun m => (m.1, .value m.2)

theorem lookup_eq_none {α : Type} {entries : List (String × α)} {key : String}
    (h : key ∉ entries.map Prod.fst) : entries.lookup key = none := by
  rw [List.lookup_eq_none_iff]
  intro e he
  rw [bne_iff_ne]
  rintro rfl
  exact h (List.mem_map_of_mem he)

/-- Plain assignments of distinct keys are added one after the other. -/
theorem assignAll?_plain {members : List (String × Tree)} {entries : Entries}
    (h : (entries.map Prod.fst ++ members.map Prod.fst).Nodup) :
    assignAll? (plainAssignments members) entries = some (entries ++ plainEntries members) := by
  induction members generalizing entries with
  | nil => simp [assignAll?, plainAssignments, plainEntries]
  | cons m members ih =>
    have hfresh : m.1 ∉ entries.map Prod.fst := by
      intro hm
      exact (List.nodup_append.1 h).2.2 m.1 hm m.1 List.mem_cons_self rfl
    have hassign : assign? m.2 [m.1] true entries = some (entries ++ [(m.1, .value m.2)]) := by
      rw [assign?, lookup_eq_none hfresh]
      rfl
    have hnodup : ((entries ++ [(m.1, Node.value m.2)]).map Prod.fst ++
        members.map Prod.fst).Nodup := by simpa using h
    have hrest := ih hnodup
    rw [assignAll?] at hrest ⊢
    simp only [plainAssignments, plainEntries, List.map_cons, List.foldlM_cons, hassign,
      Option.bind_eq_bind, Option.bind_some] at hrest ⊢
    rw [hrest, List.append_assoc]
    rfl

theorem entriesTrees_plain (members : List (String × Tree)) :
    entriesTrees (plainEntries members) = members := by
  induction members with
  | nil => rfl
  | cons m members ih =>
    rw [plainEntries, List.map_cons, entriesTrees, ← plainEntries, ih]
    rfl

theorem inlineTable?_plain {members : List (String × Tree)}
    (h : (members.map Prod.fst).Nodup) :
    inlineTable? (plainAssignments members) = some (.table members) := by
  rw [inlineTable?, assignAll?_plain (by simpa using h), List.nil_append, Option.map_some,
    entriesTrees_plain]

/-! ### Reading values -/

/-- A character that a value may start with. -/
def ValueStart (c : Char) : Prop := isSpace c = false ∧ c ≠ '\n' ∧ c ≠ '\r' ∧ c ≠ '#' ∧ c ≠ ']'

instance (c : Char) : Decidable (ValueStart c) := inferInstanceAs (Decidable (_ ∧ _))

theorem valueStart_of_number {c : Char} (h : c = '-' ∨ c.isDigit = true) : ValueStart c := by
  obtain rfl | h := h
  · decide
  · refine ⟨?_, ?_, ?_, ?_, ?_⟩
    · rw [isSpace, Bool.or_eq_false_iff, beq_eq_false_iff_ne, beq_eq_false_iff_ne]
      refine ⟨?_, ?_⟩ <;> (rintro rfl; simp at h)
    all_goals
      rintro rfl
      simp at h

theorem head_ofInt (n : Int) :
    ∃ c tail, Digits.ofInt n = c :: tail ∧ (c = '-' ∨ c.isDigit = true) := by
  simpa using Json.head_of_number? (Json.number?_ofInt n .nil)

theorem head_text {x : Double} (hx : x.isFinite = true) :
    ∃ c tail, x.text Json.floatLayout = c :: tail ∧ (c = '-' ∨ c.isDigit = true) := by
  simpa using Json.head_of_number? (Json.number?_text hx .nil)

/-- A written value is not empty. -/
theorem head_inlineText {t : Tree} (h : Writable t) :
    ∃ c tail, inlineText t = c :: tail ∧ ValueStart c := by
  cases t with
  | null => cases h
  | unusable => cases h
  | bool b =>
    cases b with
    | true => exact ⟨'t', _, rfl, by decide⟩
    | false => exact ⟨'f', _, rfl, by decide⟩
  | int n =>
    obtain ⟨c, tail, htext, hc⟩ := head_ofInt n
    exact ⟨c, tail, htext, valueStart_of_number hc⟩
  | float x =>
    obtain ⟨c, tail, htext, hc⟩ := head_text h
    exact ⟨c, tail, htext, valueStart_of_number hc⟩
  | text s => exact ⟨'"', _, rfl, by decide⟩
  | list items => exact ⟨'[', _, rfl, by decide⟩
  | table members =>
    cases members with
    | nil => exact ⟨'\x7b', _, rfl, by decide⟩
    | cons m members => exact ⟨'\x7b', _, rfl, by decide⟩

theorem skipTrivia_cons {c : Char} (hspace : isSpace c = false)
    (hc : c ≠ '\n' ∧ c ≠ '\r' ∧ c ≠ '#') (rest : List Char) :
    skipTrivia false (c :: rest) = c :: rest := by
  obtain ⟨hn, hr, hcomment⟩ := hc
  rw [skipTrivia]
  · simp [hspace, hcomment]
  · exact hn
  · intro _ heq
    exact absurd heq hr

/-- Nothing is skipped before a value. -/
theorem skipTrivia_inlineText {t : Tree} (h : Writable t) (rest : List Char) :
    skipTrivia false (inlineText t ++ rest) = inlineText t ++ rest ∧
      skipSpace (inlineText t ++ rest) = inlineText t ++ rest := by
  obtain ⟨c, tail, htext, hspace, hn, hr, hcomment, -⟩ := head_inlineText h
  rw [htext, List.cons_append]
  exact ⟨skipTrivia_cons hspace ⟨hn, hr, hcomment⟩ _, skipSpace_cons hspace _⟩

/-- Nor is anything before the items of a list. -/
theorem skipTrivia_itemsText {ts : List Tree} (h : WritableItems ts) (rest : List Char) :
    skipTrivia false (itemsText ts ++ rest) = itemsText ts ++ rest := by
  match ts with
  | [] => exact skipTrivia_cons (by decide) (by decide) _
  | [t] =>
    rw [itemsText, List.append_assoc]
    exact (skipTrivia_inlineText h.1 _).1
  | t :: u :: ts =>
    rw [itemsText, List.append_assoc]
    exact (skipTrivia_inlineText h.1 _).1

section

variable {fuel depth : Nat} {rest : List Char}

theorem readValue_scalar {c : Char} (hc : c = '-' ∨ c.isDigit = true) (cs : List Char) :
    readValue (fuel + 1) depth (c :: cs) = scalar? (c :: cs) := by
  have hquotes : ¬(c = '"' ∨ c = '\'') := by
    rintro (rfl | rfl) <;> simp at hc
  rw [readValue]
  · rw [if_neg hquotes]
  all_goals
    intros
    subst_vars
    simp at hc

theorem readValue_quoted (s : String) (hrest : ValueEnd rest) :
    readValue (fuel + 1) depth (quoted s ++ rest) = some (.text s, rest) := by
  have hread := string?_quoted s (hrest.head_ne (c := '"') (by decide))
  have htext : quoted s ++ rest = '"' :: (s.toList.flatMap escaped ++ '"' :: rest) := by
    simp [quoted]
  rw [htext] at hread ⊢
  simp [readValue, hread]

/-- One item is read, and then the items behind its comma or the closing bracket. -/
theorem readItems_succ {t : Tree} {ts : List Tree} {tail : List Char} (h : Writable t)
    (hvalue : readValue fuel depth (inlineText t ++ tail) = some (t, tail))
    (hafter : tail = ']' :: rest ∧ ts = [] ∨ ∃ more, tail = ',' :: more ∧
      readItems fuel depth (skipTrivia false more) = some (ts, rest)) :
    readItems (fuel + 1) depth (inlineText t ++ tail) = some (t :: ts, rest) := by
  obtain ⟨c, text, htext, -, -, -, -, hbracket⟩ := head_inlineText h
  rw [htext, List.cons_append] at hvalue ⊢
  rw [readItems, hvalue]
  · simp only [Option.bind_eq_bind, Option.bind_some]
    obtain ⟨rfl, rfl⟩ | ⟨more, rfl, hmore⟩ := hafter
    · simp only [skipTrivia_cons (c := ']') (by decide) (by decide)]
    · simp only [skipTrivia_cons (c := ',') (by decide) (by decide), hmore, Option.bind_some]
  · intro _ heq
    exact absurd (List.cons.inj heq).1 hbracket

/-- One member is read, and then the members behind its comma or the closing brace. -/
theorem readMembers_succ {key : String} {t : Tree} {members : List (List String × Tree)}
    {spaces tail : List Char} (hspaces : Spaces spaces) (hkey : IsBare key) (h : Writable t)
    (hvalue : readValue fuel depth (inlineText t ++ tail) = some (t, tail))
    (hafter : skipSpace tail = '\x7d' :: rest ∧ members = [] ∨ ∃ more,
      skipSpace tail = ',' :: more ∧ readMembers fuel depth more = some (members, rest)) :
    readMembers (fuel + 1) depth
        (spaces ++ (key.toList ++ ' ' :: '=' :: ' ' :: (inlineText t ++ tail))) =
      some (([key], t) :: members, rest) := by
  have hskip : skipSpace (' ' :: (inlineText t ++ tail)) = inlineText t ++ tail :=
    (skipTrivia_inlineText h tail).2
  rw [readMembers, key?_assigned hkey _ hspaces]
  simp only [Option.bind_eq_bind, Option.bind_some, after?, if_true, hskip, hvalue]
  obtain ⟨hend, rfl⟩ | ⟨more, hcomma, hmore⟩ := hafter
  · simp only [hend]
  · simp only [hcomma, hmore, Option.bind_some]

/-- A table is read from its members. -/
theorem readValue_members {m : String × Tree} {members : List (String × Tree)}
    {assignments : List (List String × Tree)} {t : Tree} (h : WritableMembers (m :: members))
    (hread : readMembers fuel depth ([] ++ (membersText (m :: members) ++ rest)) =
      some (assignments, rest)) (htable : inlineTable? assignments = some t) :
    readValue (fuel + 1) (depth + 1) (inlineText (.table (m :: members)) ++ rest) =
      some (t, rest) := by
  have hhead : ∃ c tail, membersText (m :: members) ++ rest = c :: tail ∧ isKeyChar c = true := by
    obtain ⟨key, t⟩ := m
    obtain ⟨c, tail, hkey, hc⟩ := h.1.1.exists_cons
    cases members with
    | nil => exact ⟨c, _, by rw [membersText, hkey]; rfl, hc⟩
    | cons m members => exact ⟨c, _, by rw [membersText, hkey]; rfl, hc⟩
  obtain ⟨c, tail, htext, hc⟩ := hhead
  rw [List.nil_append, htext] at hread
  have hskip : skipSpace (' ' :: c :: tail) = c :: tail :=
    skipSpace_cons (isSpace_of_isKeyChar hc) tail
  have hbrace : c ≠ '\x7d' := by
    rintro rfl
    simp [isKeyChar] at hc
  rw [inlineText, List.cons_append, List.cons_append, htext, readValue.eq_def]
  · simp only [hskip]
    split
    case h_1 heq => simp at heq
    case h_2 heq => exact absurd (List.cons.inj heq).1 hbrace
    case h_3 depth' _ hdepth _ =>
      obtain rfl := Nat.succ.inj hdepth
      simp [hread, htable]
  · exact List.cons_ne_nil _ _

theorem length_itemsText_pos (ts : List Tree) : 0 < (itemsText ts).length := by
  match ts with
  | [] | [_] | _ :: _ :: _ => simp [itemsText]

end

mutual

/-- A value is read up to the end of its text, wherever its lists and tables may nest. -/
theorem readValue_inlineText (t : Tree) (h : Writable t) {fuel depth : Nat} {rest : List Char}
    (hfuel : (inlineText t).length ≤ fuel) (hdepth : t.depth ≤ depth) (hrest : ValueEnd rest) :
    readValue fuel depth (inlineText t ++ rest) = some (t, rest) := by
  have hpos : 0 < (inlineText t).length := by
    obtain ⟨c, tail, htext, -⟩ := head_inlineText h
    simp [htext]
  obtain ⟨fuel, rfl⟩ := Nat.exists_eq_add_one_of_ne_zero (Nat.ne_zero_of_lt (hpos.trans_le hfuel))
  match t with
  | .null => exact h.elim
  | .unusable => exact h.elim
  | .bool true => rfl
  | .bool false => rfl
  | .int n =>
    obtain ⟨c, tail, htext, hc⟩ := head_ofInt n
    have hread := scalar?_ofInt h hrest
    rw [inlineText, htext] at *
    rw [List.cons_append, readValue_scalar hc]
    exact hread
  | .float x =>
    obtain ⟨c, tail, htext, hc⟩ := head_text h
    have hread := scalar?_text h hrest
    rw [inlineText, htext] at *
    rw [List.cons_append, readValue_scalar hc]
    exact hread
  | .text s => exact readValue_quoted s hrest
  | .list items =>
    rw [Tree.depth] at hdepth
    obtain ⟨depth, rfl⟩ : ∃ n, depth = n + 1 := ⟨depth - 1, by omega⟩
    have hread : readItems fuel depth (itemsText items ++ rest) = some (items, rest) :=
      readItems_itemsText items h (by simpa [inlineText] using hfuel) (by omega)
    rw [inlineText, List.cons_append, readValue, skipTrivia_itemsText h, hread]
    rfl
  | .table [] =>
    rw [Tree.depth] at hdepth
    obtain ⟨depth, rfl⟩ : ∃ n, depth = n + 1 := ⟨depth - 1, by omega⟩
    rfl
  | .table (m :: members) =>
    rw [Tree.depth] at hdepth
    obtain ⟨depth, rfl⟩ : ∃ n, depth = n + 1 := ⟨depth - 1, by omega⟩
    have hread : readMembers fuel depth ([] ++ (membersText (m :: members) ++ rest)) =
        some (plainAssignments (m :: members), rest) := by
      refine readMembers_membersText (m :: members) (List.cons_ne_nil _ _) h.2 (by simp [Spaces])
        ?_ (by omega)
      simp only [inlineText, List.length_cons] at hfuel
      omega
    exact readValue_members h.2 hread (inlineTable?_plain h.1)

/-- The items of a list are read up to its closing bracket. -/
theorem readItems_itemsText (ts : List Tree) (h : WritableItems ts) {fuel depth : Nat}
    {rest : List Char} (hfuel : (itemsText ts).length ≤ fuel)
    (hdepth : Tree.depthList ts ≤ depth) :
    readItems fuel depth (itemsText ts ++ rest) = some (ts, rest) := by
  obtain ⟨fuel, rfl⟩ : ∃ n, fuel = n + 1 := ⟨fuel - 1, by have := length_itemsText_pos ts; omega⟩
  match ts with
  | [] => rfl
  | [t] =>
    have hvalue : readValue fuel depth (inlineText t ++ ']' :: rest) = some (t, ']' :: rest) := by
      refine readValue_inlineText t h.1 ?_ ?_ (.cons (by decide) _)
      · simpa [itemsText] using hfuel
      · simpa [Tree.depthList] using hdepth
    rw [itemsText, List.append_assoc]
    exact readItems_succ h.1 hvalue (.inl ⟨rfl, rfl⟩)
  | t :: u :: ts =>
    simp only [itemsText, List.length_append, List.length_cons] at hfuel
    rw [Tree.depthList, Nat.max_le] at hdepth
    have hvalue : readValue fuel depth (inlineText t ++ ',' :: ' ' :: (itemsText (u :: ts) ++ rest)) =
        some (t, ',' :: ' ' :: (itemsText (u :: ts) ++ rest)) :=
      readValue_inlineText t h.1 (by omega) hdepth.1 (.cons (by decide) _)
    have hmore : readItems fuel depth (itemsText (u :: ts) ++ rest) = some (u :: ts, rest) :=
      readItems_itemsText (u :: ts) h.2 (by omega) hdepth.2
    have hskip : skipTrivia false (' ' :: (itemsText (u :: ts) ++ rest)) =
        itemsText (u :: ts) ++ rest := skipTrivia_itemsText h.2 rest
    rw [itemsText, List.append_assoc]
    exact readItems_succ h.1 hvalue (.inr ⟨_, rfl, hskip.symm ▸ hmore⟩)

/-- The members of a table are read up to its closing brace. -/
theorem readMembers_membersText (ms : List (String × Tree)) (hne : ms ≠ [])
    (h : WritableMembers ms) {fuel depth : Nat} {spaces rest : List Char}
    (hspaces : Spaces spaces) (hfuel : (membersText ms).length ≤ fuel)
    (hdepth : Tree.depthMembers ms ≤ depth) :
    readMembers fuel depth (spaces ++ (membersText ms ++ rest)) =
      some (plainAssignments ms, rest) := by
  match ms with
  | [] => exact absurd rfl hne
  | [(key, t)] =>
    obtain ⟨⟨hkey, ht⟩, -⟩ := h
    rw [Tree.depthMembers, Nat.max_le] at hdepth
    simp only [membersText, List.length_append, List.length_cons] at hfuel
    obtain ⟨fuel, rfl⟩ : ∃ n, fuel = n + 1 := ⟨fuel - 1, by omega⟩
    have hvalue : readValue fuel depth (inlineText t ++ ' ' :: '\x7d' :: rest) =
        some (t, ' ' :: '\x7d' :: rest) :=
      readValue_inlineText t ht (by omega) hdepth.1 (.cons (by decide) _)
    have hread := readMembers_succ hspaces hkey ht hvalue (.inl ⟨rfl, rfl⟩)
    simpa [membersText, plainAssignments] using hread
  | (key, t) :: m :: ms =>
    obtain ⟨⟨hkey, ht⟩, hms⟩ := h
    rw [Tree.depthMembers, Nat.max_le] at hdepth
    simp only [membersText, List.length_append, List.length_cons] at hfuel
    obtain ⟨fuel, rfl⟩ : ∃ n, fuel = n + 1 := ⟨fuel - 1, by omega⟩
    have hvalue : readValue fuel depth
        (inlineText t ++ ',' :: ' ' :: (membersText (m :: ms) ++ rest)) =
          some (t, ',' :: ' ' :: (membersText (m :: ms) ++ rest)) :=
      readValue_inlineText t ht (by omega) hdepth.1 (.cons (by decide) _)
    have hmore : readMembers fuel depth ([' '] ++ (membersText (m :: ms) ++ rest)) =
        some (plainAssignments (m :: ms), rest) :=
      readMembers_membersText (m :: ms) (List.cons_ne_nil _ _) hms (by simp [Spaces, isSpace])
        (by omega) hdepth.2
    have hread := readMembers_succ hspaces hkey ht hvalue (.inr ⟨_, rfl, hmore⟩)
    simpa [membersText, plainAssignments] using hread

end

end SqlSelect.Toml
