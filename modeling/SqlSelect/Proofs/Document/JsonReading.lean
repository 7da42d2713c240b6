import SqlSelect.Proofs.Document.JsonNumber
import SqlSelect.Proofs.Document.JsonString

/-!
# What JSON texts stand for

A text stands for a tree if the reader takes it for the tree and stops behind it,
whatever stands before it in spaces and after it. The texts that stand for lists and
tables are put together from those of their items and members, with spaces between
any two tokens.

## Main definitions

* `Json.Reads`, `Json.ReadsItems` and `Json.ReadsMembers`: what a text stands for;
* `Json.MemberText`: the texts of members.

## Main statements

* `Json.Reads.list` and `Json.Reads.table`: lists and tables from their parts.
-/

namespace SqlSelect

namespace Json

/-! ### Spaces -/

/-- A text of spaces between tokens. -/
def Spaces (cs : List Char) : Prop := ∀ c ∈ cs, isSpace c = true

theorem Spaces.nil : Spaces [] := by simp [Spaces]

theorem skipSpace_append {spaces : List Char} (h : Spaces spaces) (rest : List Char) :
    skipSpace (spaces ++ rest) = skipSpace rest :=
  List.dropWhile_append_of_pos h

theorem skipSpace_cons {c : Char} (hc : isSpace c = false) (rest : List Char) :
    skipSpace (c :: rest) = c :: rest := by
  rw [skipSpace, List.dropWhile_cons_of_neg (by simp [hc])]

/-- Spaces up to a token are skipped, and nothing of the token is. -/
theorem skipSpace_spaces_cons {spaces : List Char} (h : Spaces spaces) {c : Char}
    (hc : isSpace c = false) (rest : List Char) :
    skipSpace (spaces ++ c :: rest) = c :: rest := by
  rw [skipSpace_append h, skipSpace_cons hc]

/-- A number does not go on with a space. -/
theorem TokenEnd.spaces_append {spaces rest : List Char} (h : Spaces spaces)
    (hrest : TokenEnd rest) : TokenEnd (spaces ++ rest) := by
  cases spaces with
  | nil => exact hrest
  | cons c spaces =>
    have hc : isSpace c = true := h c List.mem_cons_self
    simp only [isSpace, Bool.or_eq_true, beq_iff_eq] at hc
    refine .cons ?_ _
    obtain ((rfl | rfl) | rfl) | rfl := hc <;> decide

/-! ### What a text stands for -/

/-- A text stands for a tree: behind any spaces it is read as the tree, up to its end. -/
def Reads (cs : List Char) (t : Tree) : Prop :=
  ∀ fuel spaces rest, cs.length ≤ fuel → Spaces spaces → TokenEnd rest →
    readValue fuel (spaces ++ (cs ++ rest)) = some (t, rest)

/-- A text stands for the items of a list: it is read as them up to a bracket. -/
def ReadsItems (cs : List Char) (ts : List Tree) : Prop :=
  ∀ fuel rest, cs.length < fuel → readItems fuel (cs ++ ']' :: rest) = some (ts, rest)

/-- A text stands for the members of a table: it is read as them up to a brace. -/
def ReadsMembers (cs : List Char) (ms : List (Option String × Tree)) : Prop :=
  ∀ fuel rest, cs.length < fuel → readMembers fuel (cs ++ '\x7d' :: rest) = some (ms, rest)

/-- A text that stands for a member: a string, a colon, and a text that stands for the
    value, with spaces between them. -/
inductive MemberText : List Char → Option String × Tree → Prop
  | mk {body cs s₁ s₂ : List Char} {pieces : List Piece} {t : Tree}
      (hbody : ∀ rest, stringBody (body ++ '"' :: rest) = some (pieces, rest))
      (h₁ : Spaces s₁) (h₂ : Spaces s₂) (hcs : Reads cs t) :
      MemberText ('"' :: (body ++ '"' :: (s₁ ++ ':' :: (s₂ ++ cs)))) (string? pieces, t)

/-! ### Scalars -/

theorem reads_null : Reads ['n', 'u', 'l', 'l'] .null := by
  intro fuel spaces rest hfuel hspaces _
  obtain ⟨fuel, rfl⟩ := Nat.exists_eq_add_one_of_ne_zero (Nat.ne_zero_of_lt hfuel)
  rw [List.cons_append, readValue, skipSpace_spaces_cons hspaces (by decide)]
  rfl

theorem reads_bool (b : Bool) :
    Reads (if b then ['t', 'r', 'u', 'e'] else ['f', 'a', 'l', 's', 'e']) (.bool b) := by
  intro fuel spaces rest hfuel hspaces _
  have hfuel : 0 < fuel := by
    refine Nat.lt_of_lt_of_le ?_ hfuel
    cases b <;> decide
  obtain ⟨fuel, rfl⟩ := Nat.exists_eq_add_one_of_ne_zero hfuel.ne'
  cases b with
  | true =>
    rw [if_pos rfl, List.cons_append, readValue, skipSpace_spaces_cons hspaces (by decide)]
    rfl
  | false =>
    rw [if_neg (by simp), List.cons_append, readValue,
      skipSpace_spaces_cons hspaces (by decide)]
    rfl

theorem reads_quoted (s : String) : Reads (quoted s) (.text s) := by
  intro fuel spaces rest hfuel hspaces _
  have hfuel : 0 < fuel := Nat.lt_of_lt_of_le (by simp [quoted]) hfuel
  obtain ⟨fuel, rfl⟩ := Nat.exists_eq_add_one_of_ne_zero hfuel.ne'
  have htext : quoted s ++ rest = '"' :: (s.toList.flatMap escaped ++ '"' :: rest) := by
    simp [quoted]
  rw [htext, readValue, skipSpace_spaces_cons hspaces (by decide)]
  simp only [stringBody_flatMap, Option.bind_eq_bind, Option.bind_some, string?_chars]
  rfl

/-- A text that is read as a number stands for it. -/
theorem reads_of_number? {cs : List Char} {t : Tree}
    (h : ∀ rest, TokenEnd rest → number? (cs ++ rest) = some (t, rest)) : Reads cs t := by
  have hhead := head_of_number? (h [] .nil)
  rw [List.append_nil] at hhead
  obtain ⟨c, tail, rfl, hc⟩ := hhead
  intro fuel spaces rest hfuel hspaces hrest
  obtain ⟨fuel, rfl⟩ := Nat.exists_eq_add_one_of_ne_zero (Nat.ne_zero_of_lt hfuel)
  have hspace : isSpace c = false := by
    simp only [isSpace, Bool.or_eq_false_iff, beq_eq_false_iff_ne]
    refine ⟨⟨⟨?_, ?_⟩, ?_⟩, ?_⟩ <;> (rintro rfl; simp at hc)
  rw [List.cons_append, readValue, skipSpace_spaces_cons hspaces hspace]
  -- No other value starts with a minus sign or a digit.
  split
  case h_7 => exact h rest hrest
  all_goals
    rename_i heq
    obtain rfl := (List.cons.inj heq).1
    simp at hc

/-! ### Lists -/

section

variable {cs more before after : List Char} {t : Tree} {ts : List Tree}

theorem ReadsItems.single (h : Reads cs t) (hbefore : Spaces before) (hafter : Spaces after) :
    ReadsItems (before ++ (cs ++ after)) [t] := by
  intro fuel rest hfuel
  obtain ⟨fuel, rfl⟩ := Nat.exists_eq_add_one_of_ne_zero (Nat.ne_zero_of_lt hfuel)
  simp only [List.length_append] at hfuel
  have hend : TokenEnd (after ++ ']' :: rest) := .spaces_append hafter (.cons (by decide) _)
  have hread := h fuel before (after ++ ']' :: rest) (by omega) hbefore hend
  simp only [List.append_assoc, readItems, hread, Option.bind_eq_bind, Option.bind_some,
    skipSpace_spaces_cons hafter (show isSpace ']' = false by decide)]

theorem ReadsItems.cons (h : Reads cs t) (hbefore : Spaces before) (hafter : Spaces after)
    (hmore : ReadsItems more ts) :
    ReadsItems (before ++ (cs ++ (after ++ ',' :: more))) (t :: ts) := by
  intro fuel rest hfuel
  obtain ⟨fuel, rfl⟩ := Nat.exists_eq_add_one_of_ne_zero (Nat.ne_zero_of_lt hfuel)
  simp only [List.length_append, List.length_cons] at hfuel
  have hend : TokenEnd (after ++ ',' :: (more ++ ']' :: rest)) :=
    .spaces_append hafter (.cons (by decide) _)
  have hread := h fuel before _ (by omega) hbefore hend
  have hitems := hmore fuel rest (by omega)
  simp only [List.append_assoc, List.cons_append, readItems, hread, hitems,
    Option.bind_eq_bind, Option.bind_some,
    skipSpace_spaces_cons hafter (show isSpace ',' = false by decide)]

/-- No value starts with a closing bracket. -/
theorem readItems_of_bracket {fuel : Nat} {rest : List Char} (h : skipSpace cs = ']' :: rest) :
    readItems fuel cs = none := by
  have hvalue : ∀ fuel, readValue fuel cs = none := by
    intro fuel
    cases fuel with
    | zero => rfl
    | succ fuel =>
      rw [readValue, h]
      rfl
  cases fuel with
  | zero => rfl
  | succ fuel =>
    rw [readItems, hvalue]
    rfl

theorem Reads.nil_list (h : Spaces cs) : Reads ('[' :: (cs ++ [']'])) (.list []) := by
  intro fuel spaces rest hfuel hspaces _
  obtain ⟨fuel, rfl⟩ := Nat.exists_eq_add_one_of_ne_zero (Nat.ne_zero_of_lt hfuel)
  have htext : '[' :: (cs ++ [']']) ++ rest = '[' :: (cs ++ ']' :: rest) := by simp
  rw [htext, readValue, skipSpace_spaces_cons hspaces (by decide)]
  simp only [skipSpace_spaces_cons h (show isSpace ']' = false by decide)]

theorem Reads.list (h : ReadsItems cs ts) : Reads ('[' :: (cs ++ [']'])) (.list ts) := by
  intro fuel spaces rest hfuel hspaces _
  obtain ⟨fuel, rfl⟩ := Nat.exists_eq_add_one_of_ne_zero (Nat.ne_zero_of_lt hfuel)
  simp only [List.length_cons, List.length_append, List.length_nil] at hfuel
  have htext : '[' :: (cs ++ [']']) ++ rest = '[' :: (cs ++ ']' :: rest) := by simp
  have hread := h fuel rest (by omega)
  rw [htext, readValue, skipSpace_spaces_cons hspaces (by decide)]
  simp only
  split
  case h_1 hbracket =>
    rw [readItems_of_bracket hbracket] at hread
    simp at hread
  case h_2 => simp [hread]

end

/-! ### Tables -/

section

variable {cs more before after : List Char} {m : Option String × Tree}
  {ms : List (Option String × Tree)}

/-- A member is read with the text after it, if a comma and members or a closing brace
    follow it. -/
theorem MemberText.readMembers (h : MemberText cs m) (hbefore : Spaces before) {fuel : Nat}
    {rest tail : List Char} (hfuel : cs.length ≤ fuel) (hrest : TokenEnd rest)
    (hafter : skipSpace rest = '\x7d' :: tail ∧ ms = [] ∨
      ∃ more, skipSpace rest = ',' :: more ∧ Json.readMembers fuel more = some (ms, tail)) :
    Json.readMembers (fuel + 1) (before ++ (cs ++ rest)) = some (m :: ms, tail) := by
  cases h with
  | @mk body cs s₁ s₂ pieces t hbody h₁ h₂ hcs =>
    simp only [List.length_cons, List.length_append] at hfuel
    have htext : '"' :: (body ++ '"' :: (s₁ ++ ':' :: (s₂ ++ cs))) ++ rest =
        '"' :: (body ++ '"' :: (s₁ ++ ':' :: (s₂ ++ (cs ++ rest)))) := by simp
    have hcolon : afterColon? (s₁ ++ ':' :: (s₂ ++ (cs ++ rest))) = some (s₂ ++ (cs ++ rest)) := by
      rw [afterColon?, skipSpace_spaces_cons h₁ (by decide)]
      rfl
    have hread := hcs fuel s₂ rest (by omega) h₂ hrest
    rw [htext, Json.readMembers, skipSpace_spaces_cons hbefore (by decide)]
    simp only [hbody, hcolon, hread, Option.bind_eq_bind, Option.bind_some]
    obtain ⟨hend, rfl⟩ | ⟨more, hcomma, hmore⟩ := hafter
    · simp only [hend]
    · simp only [hcomma, hmore, Option.bind_some]

theorem ReadsMembers.single (h : MemberText cs m) (hbefore : Spaces before)
    (hafter : Spaces after) : ReadsMembers (before ++ (cs ++ after)) [m] := by
  intro fuel rest hfuel
  obtain ⟨fuel, rfl⟩ := Nat.exists_eq_add_one_of_ne_zero (Nat.ne_zero_of_lt hfuel)
  simp only [List.length_append] at hfuel
  have hend : TokenEnd (after ++ '\x7d' :: rest) := .spaces_append hafter (.cons (by decide) _)
  rw [List.append_assoc, List.append_assoc]
  exact h.readMembers hbefore (by omega) hend
    (.inl ⟨skipSpace_spaces_cons hafter (by decide) rest, rfl⟩)

theorem ReadsMembers.cons (h : MemberText cs m) (hbefore : Spaces before)
    (hafter : Spaces after) (hmore : ReadsMembers more ms) :
    ReadsMembers (before ++ (cs ++ (after ++ ',' :: more))) (m :: ms) := by
  intro fuel rest hfuel
  obtain ⟨fuel, rfl⟩ := Nat.exists_eq_add_one_of_ne_zero (Nat.ne_zero_of_lt hfuel)
  simp only [List.length_append, List.length_cons] at hfuel
  have hend : TokenEnd (after ++ ',' :: (more ++ '\x7d' :: rest)) :=
    .spaces_append hafter (.cons (by decide) _)
  have htext : before ++ (cs ++ (after ++ ',' :: more)) ++ '\x7d' :: rest =
      before ++ (cs ++ (after ++ ',' :: (more ++ '\x7d' :: rest))) := by simp
  rw [htext]
  exact h.readMembers hbefore (by omega) hend
    (.inr ⟨_, skipSpace_spaces_cons hafter (by decide) _, hmore fuel rest (by omega)⟩)

theorem readMembers_of_brace {fuel : Nat} {rest : List Char}
    (h : skipSpace cs = '\x7d' :: rest) : Json.readMembers fuel cs = none := by
  cases fuel with
  | zero => rfl
  | succ fuel =>
    rw [Json.readMembers, h]
    rfl

theorem Reads.nil_table (h : Spaces cs) :
    Reads ('\x7b' :: (cs ++ ['\x7d'])) (.table []) := by
  intro fuel spaces rest hfuel hspaces _
  obtain ⟨fuel, rfl⟩ := Nat.exists_eq_add_one_of_ne_zero (Nat.ne_zero_of_lt hfuel)
  have htext : '\x7b' :: (cs ++ ['\x7d']) ++ rest = '\x7b' :: (cs ++ '\x7d' :: rest) := by simp
  rw [htext, readValue, skipSpace_spaces_cons hspaces (by decide)]
  simp only [skipSpace_spaces_cons h (show isSpace '\x7d' = false by decide)]

theorem Reads.table (h : ReadsMembers cs ms) :
    Reads ('\x7b' :: (cs ++ ['\x7d'])) (tableTree ms) := by
  intro fuel spaces rest hfuel hspaces _
  obtain ⟨fuel, rfl⟩ := Nat.exists_eq_add_one_of_ne_zero (Nat.ne_zero_of_lt hfuel)
  simp only [List.length_cons, List.length_append, List.length_nil] at hfuel
  have htext : '\x7b' :: (cs ++ ['\x7d']) ++ rest = '\x7b' :: (cs ++ '\x7d' :: rest) := by simp
  have hread := h fuel rest (by omega)
  rw [htext, readValue, skipSpace_spaces_cons hspaces (by decide)]
  simp only
  split
  case h_1 hbrace =>
    rw [readMembers_of_brace hbrace] at hread
    simp at hread
  case h_2 => simp [hread]

end

end Json

end SqlSelect
