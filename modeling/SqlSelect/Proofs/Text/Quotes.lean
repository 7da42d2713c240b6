import SqlSelect.Proofs.Text.Scan

/-!
# Quoted parts of a text

What is left of a text when everything between quotes is deleted, and texts that differ
only there.

## Main definitions

* `outsideQuotes` and `unquoted`: the text without its quoted parts;
* `QuoteFree`: a text without quotes;
* `SameOutside`: two texts with paired quotes that differ between quotes only.

## Main statements

* `SameOutside.unquoted_eq`: such texts are the same without their quoted parts.
-/

namespace SqlSelect

/-- Deletes the characters between each opening quote and the next quote. The flag says
    whether a quote is open. -/
def outsideQuotes : Bool → List Char → List Char
  | _, [] => []
  | quoted, c :: rest =>
    if c = '\'' then c :: outsideQuotes (!quoted) rest
    else if quoted then outsideQuotes quoted rest
    else c :: outsideQuotes quoted rest

/-- The text without the characters between its quotes. -/
def unquoted (s : String) : String := String.ofList (outsideQuotes false s.toList)

theorem outsideQuotes_cons_of_ne {c : Char} (hc : c ≠ '\'') (rest : List Char) :
    outsideQuotes false (c :: rest) = c :: outsideQuotes false rest := by
  simp [outsideQuotes, hc]

/-- An open quote lasts until the next one. -/
theorem outsideQuotes_true_append {s : List Char} (hs : '\'' ∉ s) (rest : List Char) :
    outsideQuotes true (s ++ '\'' :: rest) = '\'' :: outsideQuotes false rest := by
  induction s with
  | nil => simp [outsideQuotes]
  | cons c s ih =>
    rw [List.mem_cons, not_or] at hs
    simp [outsideQuotes, Ne.symm hs.1, ih hs.2]

theorem outsideQuotes_quoted {s : List Char} (hs : '\'' ∉ s) (rest : List Char) :
    outsideQuotes false ('\'' :: (s ++ '\'' :: rest)) =
      '\'' :: '\'' :: outsideQuotes false rest := by
  simp [outsideQuotes, outsideQuotes_true_append hs]

/-! ### Texts without quotes -/

def QuoteFree (s : String) : Prop := '\'' ∉ s.toList

instance (s : String) : Decidable (QuoteFree s) := inferInstanceAs (Decidable ('\'' ∉ s.toList))

@[simp] theorem quoteFree_append {s t : String} :
    QuoteFree (s ++ t) ↔ QuoteFree s ∧ QuoteFree t := by
  simp [QuoteFree]

theorem quoteFree_intercalate {separator : String} (hs : QuoteFree separator)
    {parts : List String} (h : ∀ part ∈ parts, QuoteFree part) :
    QuoteFree (String.intercalate separator parts) := by
  induction parts with
  | nil => simp [QuoteFree]
  | cons part rest ih =>
    have hpart := h part List.mem_cons_self
    have hrest := ih fun part hp => h part (List.mem_cons_of_mem _ hp)
    cases rest with
    | nil => simpa using hpart
    | cons next rest =>
      rw [String.intercalate_cons_cons, quoteFree_append, quoteFree_append]
      exact ⟨⟨hpart, hs⟩, hrest⟩

theorem quoteFree_join {parts : List String} (h : ∀ part ∈ parts, QuoteFree part) :
    QuoteFree (String.join parts) := by
  induction parts with
  | nil => simp [QuoteFree]
  | cons part rest ih =>
    rw [String.join_cons, quoteFree_append]
    exact ⟨h part List.mem_cons_self, ih fun part hp => h part (List.mem_cons_of_mem _ hp)⟩

/-! ### Texts that differ between quotes only -/

/-- Two texts with paired quotes that are the same outside of them. -/
inductive SameOutside : List Char → List Char → Prop
  | nil : SameOutside [] []
  | char {c : Char} {l r : List Char} (hc : c ≠ '\'') (h : SameOutside l r) :
      SameOutside (c :: l) (c :: r)
  | quoted {s t l r : List Char} (hs : '\'' ∉ s) (ht : '\'' ∉ t) (h : SameOutside l r) :
      SameOutside ('\'' :: (s ++ '\'' :: l)) ('\'' :: (t ++ '\'' :: r))

namespace SameOutside

variable {l r l' r' : List Char}

theorem append (h : SameOutside l r) (h' : SameOutside l' r') :
    SameOutside (l ++ l') (r ++ r') := by
  induction h with
  | nil => exact h'
  | char hc _ ih => exact .char hc ih
  | quoted hs ht _ ih =>
    rw [List.cons_append, List.append_assoc, List.cons_append, List.cons_append,
      List.append_assoc, List.cons_append]
    exact .quoted hs ht ih

/-- A text with paired quotes is the same as itself. -/
theorem of_paired (h : Paired (· ≠ '\'') l) : SameOutside l l := by
  induction h with
  | nil => exact .nil
  | char hc _ ih => exact .char hc ih
  | quoted hs _ ih => exact .quoted hs hs ih

theorem of_quoteFree {s : String} (h : QuoteFree s) : SameOutside s.toList s.toList :=
  of_paired (.of_forall fun _ hc hquote => h (hquote ▸ hc))

theorem enclosed {s t : List Char} (hs : '\'' ∉ s) (ht : '\'' ∉ t) :
    SameOutside ('\'' :: (s ++ ['\''])) ('\'' :: (t ++ ['\''])) :=
  .quoted hs ht .nil

theorem outsideQuotes_eq (h : SameOutside l r) : outsideQuotes false l = outsideQuotes false r := by
  induction h with
  | nil => rfl
  | char hc _ ih => rw [outsideQuotes_cons_of_ne hc, outsideQuotes_cons_of_ne hc, ih]
  | quoted hs ht _ ih => rw [outsideQuotes_quoted hs, outsideQuotes_quoted ht, ih]

/-- Texts that differ between quotes only are the same without their quoted parts. -/
theorem unquoted_eq {s t : String} (h : SameOutside s.toList t.toList) :
    unquoted s = unquoted t := by
  rw [unquoted, unquoted, h.outsideQuotes_eq]

theorem eq_nil_iff (h : SameOutside l r) : l = [] ↔ r = [] := by
  cases h <;> simp

/-- Such texts are empty together. -/
theorem eq_empty_iff {s t : String} (h : SameOutside s.toList t.toList) : s = "" ↔ t = "" := by
  rw [← String.toList_eq_nil_iff, ← String.toList_eq_nil_iff]
  exact h.eq_nil_iff

end SameOutside

end SqlSelect
