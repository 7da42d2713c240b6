import SqlSelect.Proofs.Text.Scan

/-!
# Runs of blanks

A text is read from left to right, and the reader knows whether a quote is open and
whether the last character was a blank outside of quotes. Every further blank of such a
run can be dropped. A text whose words stand one blank apart is read to its end without a
blank to drop, and ends on a word.

## Main definitions

* `Reader`: what is known of the characters that were read;
* `collapse`: every run of blanks outside of quotes is made one blank;
* `Tidy`: no such run is longer than one blank, and none is at an end of the text;
* `Phrase`: words with single blanks between them.

## Main statements

* `Phrase.append`, `Phrase.blank` and `Phrase.of_paired`: how phrases are put together;
* `Phrase.tidy`: phrases are tidy.
-/

namespace SqlSelect

/-- What is known after some characters of a text: that a quote is open, or else whether
    the last of them was a blank. -/
inductive Reader where
  | blank
  | other
  | quoted
deriving DecidableEq

def Reader.next : Reader → Char → Reader
  | .quoted, c => if c = '\'' then .other else .quoted
  | _, c => if c = '\'' then .quoted else if c = ' ' then .blank else .other

/-- The rest of a text without the blanks that follow a blank outside of quotes. -/
def collapseFrom : Reader → List Char → List Char
  | _, [] => []
  | s, c :: rest =>
    if s = .blank ∧ c = ' ' then collapseFrom s rest else c :: collapseFrom (s.next c) rest

/-- The text with each run of blanks outside of quotes made one blank. -/
def collapse (text : String) : String := String.ofList (collapseFrom .other text.toList)

/-- Two blanks are side by side only where a quote is open, behind an odd number of quotes,
    and no blank is at either end of the text. -/
structure Tidy (text : String) : Prop where
  single : ∀ pre post, text.toList = pre ++ ' ' :: ' ' :: post → pre.count '\'' % 2 = 1
  head : text.toList.head? ≠ some ' '
  last : text.toList.getLast? ≠ some ' '

/-! ### Reading -/

section

variable {s : Reader} {l r : List Char}

theorem collapseFrom_append (s : Reader) (l r : List Char) :
    collapseFrom s (l ++ r) = collapseFrom s l ++ collapseFrom (l.foldl Reader.next s) r := by
  induction l generalizing s with
  | nil => rfl
  | cons c l ih =>
    by_cases hdrop : s = .blank ∧ c = ' '
    · have hnext : s.next c = s := by rw [hdrop.1, hdrop.2]; rfl
      rw [List.cons_append, collapseFrom, collapseFrom, if_pos hdrop, if_pos hdrop, ih,
        List.foldl_cons, hnext]
    · rw [List.cons_append, collapseFrom, collapseFrom, if_neg hdrop, if_neg hdrop, ih,
        List.foldl_cons, List.cons_append]

theorem length_collapseFrom_le (s : Reader) (l : List Char) :
    (collapseFrom s l).length ≤ l.length := by
  induction l generalizing s with
  | nil => exact Nat.le_refl _
  | cons c l ih =>
    rw [collapseFrom]
    split
    · exact Nat.le_succ_of_le (ih s)
    · exact Nat.succ_le_succ (ih _)

/-- A text has no blank to drop exactly if neither of its parts has one. -/
theorem collapseFrom_append_eq_self_iff :
    collapseFrom s (l ++ r) = l ++ r ↔
      collapseFrom s l = l ∧ collapseFrom (l.foldl Reader.next s) r = r := by
  rw [collapseFrom_append]
  refine ⟨fun h => ?_, fun h => by rw [h.1, h.2]⟩
  have hleft := length_collapseFrom_le s l
  have hright := length_collapseFrom_le (l.foldl Reader.next s) r
  have hlen := congrArg List.length h
  rw [List.length_append, List.length_append] at hlen
  exact List.append_inj h (by omega)

theorem collapseFrom_blank_ne (r : List Char) : collapseFrom .blank (' ' :: r) ≠ ' ' :: r := by
  intro h
  have hlen := length_collapseFrom_le .blank r
  rw [collapseFrom, if_pos ⟨rfl, rfl⟩] at h
  rw [h] at hlen
  exact absurd hlen (Nat.not_succ_le_self _)

theorem Reader.next_of_ne_quoted (hs : s ≠ .quoted) (c : Char) :
    s.next c = if c = '\'' then .quoted else if c = ' ' then .blank else .other := by
  cases s with
  | quoted => exact absurd rfl hs
  | blank => rfl
  | other => rfl

theorem Reader.next_blank (hs : s ≠ .quoted) : s.next ' ' = .blank :=
  next_of_ne_quoted hs ' '

/-- A quote is open exactly behind an odd number of quotes. -/
theorem foldl_next_eq_quoted_iff (s : Reader) (l : List Char) :
    l.foldl Reader.next s = .quoted ↔
      (l.count '\'' + if s = .quoted then 1 else 0) % 2 = 1 := by
  induction l generalizing s with
  | nil => cases s <;> decide
  | cons c l ih =>
    rw [List.foldl_cons, ih]
    by_cases hc : c = '\''
    · cases s with
      | quoted =>
        simp [Reader.next, hc]
        omega
      | blank => simp [Reader.next, hc]
      | other => simp [Reader.next, hc]
    · by_cases hblank : c = ' '
      · cases s <;> simp [Reader.next, hblank]
      · cases s <;> simp [Reader.next, hc, hblank]

end

/-! ### Phrases -/

/-- A text that is read without a blank to drop, even behind a blank, and that leaves the
    reader at a character that is no blank, with no quote open. -/
def Phrase (l : List Char) : Prop :=
  ∀ s, s ≠ .quoted → collapseFrom s l = l ∧ l.foldl Reader.next s = .other

/-- A phrase, or nothing. -/
def OptionalPhrase (l : List Char) : Prop := l = [] ∨ Phrase l

namespace Phrase

variable {l r : List Char}

theorem ne_nil (hl : Phrase l) : l ≠ [] := by
  rintro rfl
  cases (hl .blank (by decide)).2

theorem ne_empty {text : String} (h : Phrase text.toList) : text ≠ "" :=
  mt String.toList_eq_nil_iff.2 h.ne_nil

theorem append (hl : Phrase l) (hr : Phrase r) : Phrase (l ++ r) := by
  intro s hs
  obtain ⟨hcollapse, hlast⟩ := hl s hs
  obtain ⟨hcollapse', hlast'⟩ := hr .other (by decide)
  rw [collapseFrom_append, List.foldl_append, hcollapse, hlast, hcollapse', hlast']
  exact ⟨rfl, rfl⟩

/-- Two phrases with a blank between them. -/
theorem blank (hl : Phrase l) (hr : Phrase r) : Phrase (l ++ ' ' :: r) := by
  intro s hs
  obtain ⟨hcollapse, hlast⟩ := hl s hs
  obtain ⟨hcollapse', hlast'⟩ := hr .blank (by decide)
  have hnext : Reader.other.next ' ' = .blank := rfl
  rw [collapseFrom_append, List.foldl_append, hcollapse, hlast, List.foldl_cons, hnext, hlast',
    collapseFrom, if_neg (by decide), hnext, hcollapse']
  exact ⟨rfl, rfl⟩

theorem append_optional (hl : Phrase l) (hr : OptionalPhrase r) : Phrase (l ++ r) := by
  obtain rfl | hr := hr
  · rwa [List.append_nil]
  · exact hl.append hr

theorem of_char {c : Char} (hblank : c ≠ ' ') (hquote : c ≠ '\'') : Phrase [c] := by
  intro s hs
  have hnext : s.next c = .other := by
    rw [Reader.next_of_ne_quoted hs, if_neg hquote, if_neg hblank]
  rw [collapseFrom, if_neg fun hdrop => hblank hdrop.2]
  exact ⟨rfl, hnext⟩

/-- What stands between quotes is read as it is. -/
theorem of_quoted {t : List Char} (ht : '\'' ∉ t) : Phrase ('\'' :: (t ++ ['\''])) := by
  have hopen : collapseFrom .quoted t = t ∧ t.foldl Reader.next .quoted = .quoted := by
    induction t with
    | nil => exact ⟨rfl, rfl⟩
    | cons c t ih =>
      rw [List.mem_cons, not_or] at ht
      have hnext : Reader.quoted.next c = .quoted := if_neg (Ne.symm ht.1)
      rw [collapseFrom, if_neg (by simp), List.foldl_cons, hnext, (ih ht.2).1]
      exact ⟨rfl, (ih ht.2).2⟩
  intro s hs
  have hquote : s.next '\'' = .quoted := Reader.next_of_ne_quoted hs '\''
  rw [collapseFrom, if_neg (by simp), List.foldl_cons, hquote, collapseFrom_append,
    List.foldl_append, hopen.1, hopen.2]
  exact ⟨rfl, rfl⟩

/-- A phrase has no blank to drop, and would lose one at its start behind a blank. -/
theorem tidy {text : String} (h : Phrase text.toList) : Tidy text where
  single pre post htext := by
    have hcollapse := (h .other (by decide)).1
    rw [htext, collapseFrom_append_eq_self_iff] at hcollapse
    have hquoted : pre.foldl Reader.next .other = .quoted := by
      by_contra hopen
      have hpair := hcollapse.2
      rw [← List.singleton_append, collapseFrom_append_eq_self_iff, List.foldl_cons,
        Reader.next_blank hopen] at hpair
      exact collapseFrom_blank_ne post hpair.2
    exact (foldl_next_eq_quoted_iff .other pre).1 hquoted
  head hhead := by
    obtain ⟨rest, hrest⟩ := List.head?_eq_some_iff.1 hhead
    have hcollapse := (h .blank (by decide)).1
    rw [hrest] at hcollapse
    exact collapseFrom_blank_ne rest hcollapse
  last hlast := by
    obtain ⟨init, hinit⟩ := List.getLast?_eq_some_iff.1 hlast
    have hend := (h .other (by decide)).2
    rw [hinit, List.foldl_append] at hend
    -- Behind a blank the reader is at a blank, or in a quote that stays open.
    by_cases hquoted : init.foldl Reader.next .other = .quoted
    · rw [hquoted] at hend
      cases hend
    · rw [List.foldl_cons, Reader.next_blank hquoted] at hend
      cases hend

end Phrase

namespace OptionalPhrase

variable {l r : List Char}

theorem eq_empty_or_phrase {text : String} (h : OptionalPhrase text.toList) :
    text = "" ∨ Phrase text.toList :=
  h.imp_left String.toList_eq_nil_iff.1

theorem phrase {text : String} (h : OptionalPhrase text.toList) (hne : text ≠ "") :
    Phrase text.toList :=
  h.eq_empty_or_phrase.resolve_left hne

theorem append_phrase (hl : OptionalPhrase l) (hr : Phrase r) : Phrase (l ++ r) := by
  obtain rfl | hl := hl
  · exact hr
  · exact hl.append hr

theorem append (hl : OptionalPhrase l) (hr : OptionalPhrase r) : OptionalPhrase (l ++ r) := by
  obtain rfl | hl := hl
  · exact hr
  · exact .inr (hl.append_optional hr)

theorem flatMap {α : Type} {f : α → List Char} {items : List α}
    (h : ∀ i ∈ items, OptionalPhrase (f i)) : OptionalPhrase (items.flatMap f) := by
  induction items with
  | nil => exact .inl rfl
  | cons i items ih =>
    rw [List.forall_mem_cons] at h
    exact h.1.append (ih h.2)

/-- Paired quotes, and no blank outside of them. -/
theorem of_paired (hl : Paired (fun c => c ≠ ' ' ∧ c ≠ '\'') l) : OptionalPhrase l := by
  induction hl with
  | nil => exact .inl rfl
  | char hc _ ih => exact .inr ((Phrase.of_char hc.1 hc.2).append_optional ih)
  | @quoted s l hs _ ih =>
    have hphrase := (Phrase.of_quoted hs).append_optional ih
    rw [List.cons_append, List.append_assoc] at hphrase
    exact .inr hphrase

end OptionalPhrase

end SqlSelect
