import Mathlib.Data.List.Basic

/-!
# Words

A word is made of characters of one class and ends at the first other character.

## Main definitions

* `isNameChar`, `IsWord` and `IsPlainName`: the names that are words;
* `NameEnd`: the texts before which a name ends.

## Main statements

* `word_append_inj`: where a word ends is determined;
* `IsPlainName.append_inj`: a name before a text that ends it is read back.
-/

namespace SqlSelect

/-- The characters of plain names: letters, digits, underscores and points. Every
    character beyond ASCII counts as a letter. -/
def isNameChar (c : Char) : Bool := c.isAlphanum || c == '_' || c == '.' || 128 ≤ c.toNat

/-- A name that is a word or empty. -/
def IsWord (name : String) : Prop := ∀ c ∈ name.toList, isNameChar c = true

/-- A name that is a word. -/
structure IsPlainName (name : String) : Prop where
  ne_empty : name ≠ ""
  chars : IsWord name

instance (name : String) : Decidable (IsWord name) :=
  decidable_of_iff (name.toList.all isNameChar = true) List.all_eq_true

instance (name : String) : Decidable (IsPlainName name) :=
  decidable_of_iff (name ≠ "" ∧ IsWord name)
    ⟨fun h => ⟨h.1, h.2⟩, fun h => ⟨h.ne_empty, h.chars⟩⟩

/-- A word is followed by its first foreign character in one way only. -/
theorem word_append_inj {p : Char → Prop} {l₁ l₂ r₁ r₂ : List Char} (h₁ : ∀ c ∈ l₁, p c)
    (h₂ : ∀ c ∈ l₂, p c) (hr₁ : ∀ c ∈ r₁.head?, ¬p c) (hr₂ : ∀ c ∈ r₂.head?, ¬p c)
    (h : l₁ ++ r₁ = l₂ ++ r₂) : l₁ = l₂ ∧ r₁ = r₂ := by
  -- If one word ended first, the other would go on with a foreign character.
  induction l₁ generalizing l₂ with
  | nil =>
    cases l₂ with
    | nil => exact ⟨rfl, h⟩
    | cons c l₂ =>
      rw [List.nil_append] at h
      subst h
      exact absurd (h₂ c List.mem_cons_self) (hr₁ c rfl)
  | cons c l₁ ih =>
    cases l₂ with
    | nil =>
      rw [List.nil_append] at h
      subst h
      exact absurd (h₁ c List.mem_cons_self) (hr₂ c rfl)
    | cons c' l₂ =>
      simp only [List.cons_append, List.cons.injEq] at h
      obtain ⟨rfl, htail⟩ := h
      obtain ⟨rfl, hr⟩ := ih (fun d hd => h₁ d (List.mem_cons_of_mem c hd))
        (fun d hd => h₂ d (List.mem_cons_of_mem c hd)) htail
      exact ⟨rfl, hr⟩

/-- A text that is empty or starts with a character of no name. -/
def NameEnd (r : List Char) : Prop := ∀ c ∈ r.head?, ¬isNameChar c = true

theorem NameEnd.cons {a : Char} (ha : isNameChar a = false) (r : List Char) :
    NameEnd (a :: r) := by
  intro c hc
  obtain rfl := Option.some.inj hc
  simp [ha]

theorem IsPlainName.append_inj {a b : String} {r₁ r₂ : List Char} (ha : IsPlainName a)
    (hb : IsPlainName b) (hr₁ : NameEnd r₁) (hr₂ : NameEnd r₂)
    (h : a.toList ++ r₁ = b.toList ++ r₂) : a = b ∧ r₁ = r₂ := by
  obtain ⟨hab, hr⟩ := word_append_inj (p := fun c => isNameChar c = true) ha.chars hb.chars
    hr₁ hr₂ h
  exact ⟨String.toList_inj.1 hab, hr⟩

end SqlSelect
