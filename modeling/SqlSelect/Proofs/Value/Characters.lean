import SqlSelect.Proofs.Text.Scan
import SqlSelect.Value

/-!
# Characters of literal texts

Which characters a literal is made of. Numbers and words hold letters, digits,
points and minus signs; texts and date-times stand between quotes; commas come
from sequences alone. So a literal never holds a parenthesis, a blank or a
comparison sign outside of quotes.

## Main definitions

* `isScalarChar`: the characters of numbers and words;
* `Value.texts`: the texts in a value, at any depth.

## Main statements

* `Value.paired_sql`: the shape of a literal whose texts hold no quote;
* `Value.sql_ne_empty_of_scalar`: only a sequence can have no text.
-/

namespace SqlSelect

/-- The characters of numbers and of the words `NULL`, `true`, `NaN`, …. -/
def isScalarChar (c : Char) : Bool := c.isAlphanum || c == '.' || c == '-'

theorem isScalarChar_of_isDigit {c : Char} (h : c.isDigit = true) : isScalarChar c = true := by
  simp [isScalarChar, Char.isAlphanum, h]

/-! ### Digits -/

namespace Digits

theorem ofNat_ne_nil (n : Nat) : ofNat n ≠ [] := Nat.toDigits_ne_nil

theorem isDigit_of_mem_padded {width n : Nat} {c : Char} (h : c ∈ padded width n) :
    c.isDigit = true := by
  rw [padded, List.mem_append] at h
  obtain h | h := h
  · rw [List.eq_of_mem_replicate h]
    decide
  · exact isDigit_of_mem_ofNat h

theorem le_length_padded (width n : Nat) : width ≤ (padded width n).length := by
  rw [padded, List.length_append, List.length_replicate]
  omega

theorem isScalarChar_of_mem_ofInt {n : Int} {c : Char} (h : c ∈ ofInt n) :
    isScalarChar c = true := by
  cases n with
  | ofNat n => exact isScalarChar_of_isDigit (isDigit_of_mem_ofNat h)
  | negSucc n =>
    obtain rfl | h := List.mem_cons.1 h
    · decide
    · exact isScalarChar_of_isDigit (isDigit_of_mem_ofNat h)

theorem ofInt_ne_nil (n : Int) : ofInt n ≠ [] := by
  cases n with
  | ofNat n => exact ofNat_ne_nil n
  | negSucc n => exact List.cons_ne_nil _ _

end Digits

/-! ### Numbers -/

section

variable {c : Char}

theorem FloatLayout.isScalarChar_of_mem_positionalText {ds : List Char} {point : Int}
    (hds : ∀ c ∈ ds, isScalarChar c = true)
    (h : c ∈ Value.floatLayout.positionalText ds point) : isScalarChar c = true := by
  have hzero : ∀ k, c ∈ List.replicate k '0' → isScalarChar c = true := by
    intro k hc
    rw [List.eq_of_mem_replicate hc]
    decide
  simp only [positionalText, Value.floatLayout] at h
  split at h
  · simp only [List.cons_append, List.nil_append, List.mem_cons, List.mem_append] at h
    obtain rfl | rfl | h | h := h
    · decide
    · decide
    · exact hzero _ h
    · exact hds c h
  · split at h
    · rw [List.append_nil, List.mem_append] at h
      exact h.elim (hds c) (hzero _)
    · simp only [List.mem_append, List.mem_singleton] at h
      obtain (h | rfl) | h := h
      · exact hds c (List.mem_of_mem_take h)
      · decide
      · exact hds c (List.mem_of_mem_drop h)

theorem FloatLayout.positionalText_ne_nil {ds : List Char} (point : Int) (hds : ds ≠ []) :
    Value.floatLayout.positionalText ds point ≠ [] := by
  simp only [positionalText]
  split
  · simp
  · split <;> simp [hds]

theorem Double.isScalarChar_of_mem_text {x : Double} (h : c ∈ x.text Value.floatLayout) :
    isScalarChar c = true := by
  have hsign : ∀ (b : Bool) (l : List Char), (∀ c ∈ l, isScalarChar c = true) →
      c ∈ (if b then ['-'] else []) ++ l → isScalarChar c = true := by
    intro b l hl hc
    obtain hc | hc := List.mem_append.1 hc
    · cases b <;> simp at hc
      subst hc
      decide
    · exact hl c hc
  cases x with
  | nan =>
    have hnan : ∀ c ∈ ['N', 'a', 'N'], isScalarChar c = true :=
      List.all_eq_true.1 (by decide)
    exact hnan c h
  | infinite s =>
    exact hsign s ['i', 'n', 'f'] (List.all_eq_true.1 (by decide)) h
  | finite s m e hc =>
    refine hsign s _ (fun d hd => ?_) h
    exact FloatLayout.isScalarChar_of_mem_positionalText
      (fun d hd => isScalarChar_of_isDigit (Digits.isDigit_of_mem_ofNat hd)) hd

theorem Double.text_ne_nil (x : Double) : x.text Value.floatLayout ≠ [] := by
  cases x with
  | nan => exact List.cons_ne_nil _ _
  | infinite s => simp [text, Value.floatLayout]
  | finite s m e hc =>
    refine List.append_ne_nil_of_right_ne_nil _ ?_
    exact FloatLayout.positionalText_ne_nil _ (Digits.ofNat_ne_nil _)

theorem Decimal.isScalarChar_of_mem_text {d : Decimal} (h : c ∈ d.text) :
    isScalarChar c = true := by
  have hds : ∀ c ∈ Digits.padded (d.scale + 1) d.coefficient, isScalarChar c = true :=
    fun c hc => isScalarChar_of_isDigit (Digits.isDigit_of_mem_padded hc)
  simp only [text, List.mem_append] at h
  obtain (h | h) | h := h
  · cases hn : d.negative <;> simp [hn] at h
    subst h
    decide
  · exact hds c (List.mem_of_mem_take h)
  · split at h
    · simp at h
    · obtain rfl | h := List.mem_cons.1 h
      · decide
      · exact hds c (List.mem_of_mem_drop h)

/-- There is at least one digit before the point. -/
theorem Decimal.text_ne_nil (d : Decimal) : d.text ≠ [] := by
  have hlen := Digits.le_length_padded (d.scale + 1) d.coefficient
  refine List.append_ne_nil_of_left_ne_nil (List.append_ne_nil_of_right_ne_nil _ ?_) _
  intro h
  have := congrArg List.length h
  rw [List.length_take, List.length_nil] at this
  omega

/-! ### Date-times -/

theorem DateTime.quote_notMem_sqlText (t : DateTime) : '\'' ∉ t.sqlText := by
  have hdigit : ∀ width n, '\'' ∉ Digits.padded width n := by
    intro width n h
    have := Digits.isDigit_of_mem_padded h
    simp at this
  have hyear : '\'' ∉ yearText t.year := by
    rw [yearText.eq_def]
    split
    · split <;> simp [hdigit]
    · simp [hdigit]
  simp [sqlText, dateText, timeText, hdigit, hyear]

end

/-! ### Values -/

namespace Value

mutual

/-- The texts in a value, at any depth of its sequences. -/
def texts : Value → List String
  | .text s => [s]
  | .array items => textsList items
  | _ => []

/-- The texts in the items of a sequence. -/
def textsList : List Value → List String
  | [] => []
  | v :: rest => v.texts ++ textsList rest

end

/-- The literal of a value that is no sequence: characters of numbers and words, or
    a text between quotes. -/
theorem paired_sql_of_scalar {v : Value} (hv : v.isSequence = false)
    (h : ∀ s ∈ v.texts, '\'' ∉ s.toList) :
    Paired (fun c => isScalarChar c = true) v.sql.toList := by
  cases v with
  | null => exact .of_forall (List.all_eq_true.1 (by decide))
  | bool b => cases b <;> exact .of_forall (List.all_eq_true.1 (by decide))
  | int n =>
    rw [sql, String.toList_ofList]
    exact .of_forall fun c hc => Digits.isScalarChar_of_mem_ofInt hc
  | float x =>
    rw [sql, String.toList_ofList]
    exact .of_forall fun c hc => Double.isScalarChar_of_mem_text hc
  | decimal d =>
    rw [sql, String.toList_ofList]
    exact .of_forall fun c hc => Decimal.isScalarChar_of_mem_text hc
  | text s =>
    have hs : '\'' ∉ s.toList := h s (by simp [texts])
    simpa [sql] using Paired.enclosed hs
  | dateTime t => simpa [sql] using Paired.enclosed t.quote_notMem_sqlText
  | array items => simp [isSequence] at hv

/-- Only a sequence can have no text. -/
theorem sql_ne_empty_of_scalar {v : Value} (hv : v.isSequence = false) : v.sql ≠ "" := by
  cases v with
  | null => decide
  | bool b => cases b <;> decide
  | int n => simpa [sql] using Digits.ofInt_ne_nil n.toInt
  | float x => simpa [sql] using x.text_ne_nil
  | decimal d => simpa [sql] using d.text_ne_nil
  | text s => simp [sql]
  | dateTime t => simp [sql]
  | array items => simp [isSequence] at hv

mutual

/-- In a literal whose texts hold no quote, quotes are paired, and outside of them
    stand characters of numbers and words, and commas. -/
theorem paired_sql (v : Value) (h : ∀ s ∈ v.texts, '\'' ∉ s.toList) :
    Paired (fun c => isScalarChar c = true ∨ c = ',') v.sql.toList := by
  cases hv : v with
  | array items =>
    subst hv
    exact paired_sqlList items h
  | _ =>
    subst hv
    exact (paired_sql_of_scalar rfl h).mono fun c hc => .inl hc

theorem paired_sqlList (items : List Value) (h : ∀ s ∈ textsList items, '\'' ∉ s.toList) :
    Paired (fun c => isScalarChar c = true ∨ c = ',') (sqlList items).toList := by
  match items, h with
  | [], _ => exact .nil
  | [v], h => exact paired_sql v fun s hs => h s (by simpa [textsList] using hs)
  | v :: w :: rest, h =>
    have hv := paired_sql v fun s hs => h s (by simp [textsList, hs])
    have hrest := paired_sqlList (w :: rest) fun s hs =>
      h s (by rw [textsList, List.mem_append]; exact .inr hs)
    rw [sqlList, String.toList_append, String.toList_append]
    exact (hv.append (.of_forall (by simp))).append hrest

end

end Value

end SqlSelect
