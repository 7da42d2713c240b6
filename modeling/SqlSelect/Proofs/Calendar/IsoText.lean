import SqlSelect.Calendar.Reader
import SqlSelect.Proofs.Text.Digits

/-!
# Reading printed date-times

Every field of a printed date-time is as wide as the reader expects it, and a
separator of no digits stands behind it. So a date-time is read back with its year of
any sign, its leap second and its whole fraction.

## Main statements

* `DateTime.ofText?_isoText`: a printed date-time is read as itself.
-/

namespace SqlSelect

namespace Calendar

/-! ### Fields -/

theorem isBlank_of_isDigit {c : Char} (hc : c.isDigit = true) : isBlank c = false := by
  obtain ⟨hlow, hhigh⟩ := Char.isDigit_iff_toNat.1 hc
  have hzero : '0'.toNat = 48 := rfl
  have hnine : '9'.toNat = 57 := rfl
  simp only [isBlank, Bool.or_eq_false_iff, Bool.and_eq_false_iff, decide_eq_false_iff_not]
  omega

theorem skipBlanks_cons {c : Char} (hc : isBlank c = false) (rest : List Char) :
    skipBlanks (c :: rest) = c :: rest := by
  rw [skipBlanks, List.dropWhile_cons_of_neg (by simp [hc])]

/-- A run of digits that is not too wide is a field. -/
theorem field?_append {width : Nat} {ds rest : List Char} (hds : ∀ c ∈ ds, c.isDigit = true)
    (hne : ds ≠ []) (hwidth : ds.length ≤ width) (hrest : Digits.End rest) :
    field? width (ds ++ rest) = some (Digits.value ds, rest) := by
  have htaken : Digits.End (rest.take (width - ds.length)) := by
    intro c hc
    rw [List.head?_take] at hc
    split at hc
    · simp at hc
    · exact hrest c hc
  have hdigits : ((ds ++ rest).take width).takeWhile Char.isDigit = ds := by
    rw [List.take_append, List.take_of_length_le hwidth]
    exact (Prod.mk.inj (Digits.span_append_of_isDigit hds htaken)).1
  rw [field?, hdigits]
  simp only [if_neg hne, List.drop_left]

theorem exists_padded_eq_cons (width n : Nat) :
    ∃ c tail, Digits.padded width n = c :: tail ∧ c.isDigit = true := by
  have hne : Digits.padded width n ≠ [] :=
    List.append_ne_nil_of_right_ne_nil _ (Digits.ofNat_ne_nil n)
  obtain ⟨c, tail, h⟩ := List.exists_cons_of_ne_nil hne
  have hmem : c ∈ Digits.padded width n := by simp [h]
  exact ⟨c, tail, h, Digits.isDigit_of_mem_padded hmem⟩

theorem skipBlanks_padded (width n : Nat) (rest : List Char) :
    skipBlanks (Digits.padded width n ++ rest) = Digits.padded width n ++ rest := by
  obtain ⟨c, tail, h, hc⟩ := exists_padded_eq_cons width n
  rw [h, List.cons_append, skipBlanks_cons (isBlank_of_isDigit hc)]

/-- A number printed in a width is read from a field of at least that width. -/
theorem field?_padded {width bound n : Nat} (hwidth : (Digits.padded width n).length ≤ bound)
    {rest : List Char} (hrest : Digits.End rest) :
    field? bound (Digits.padded width n ++ rest) = some (n, rest) := by
  obtain ⟨c, tail, h, -⟩ := exists_padded_eq_cons width n
  rw [field?_append (fun c => Digits.isDigit_of_mem_padded) (by simp [h]) hwidth hrest,
    Digits.value_padded]

theorem spacedField?_pair {n : Nat} (hn : n < 100) {rest : List Char}
    (hrest : Digits.End rest) :
    spacedField? 2 (Digits.padded 2 n ++ rest) = some (n, rest) := by
  have hlen : (Digits.padded 2 n).length = 2 := Digits.length_padded (by decide) hn
  rw [spacedField?, skipBlanks_padded, field?_padded (Nat.le_of_eq hlen) hrest]

theorem separator?_cons {mark : Char} (hmark : isBlank mark = false) (rest : List Char) :
    separator? mark (mark :: rest) = some rest := by
  rw [separator?, skipBlanks_cons hmark]
  simp

/-- A signed number of any width is read from the whole of what follows. -/
theorem field?_length_padded (width n : Nat) {rest : List Char} (hrest : Digits.End rest) :
    field? (Digits.padded width n ++ rest).length (Digits.padded width n ++ rest) =
      some (n, rest) := by
  refine field?_padded ?_ hrest
  rw [List.length_append]
  exact Nat.le_add_right _ _

/-! ### Dates and times -/

/-- A year is read with its sign, and without one from its four digits. -/
theorem year?_yearText (year : Int) {rest : List Char} (hrest : Digits.End rest) :
    year? (DateTime.yearText year ++ rest) = some (year, rest) := by
  cases year with
  | negSucc n =>
    have hread := field?_length_padded 4 (n + 1) hrest
    rw [DateTime.yearText, List.cons_append, year?, skipBlanks_cons (by decide)]
    simp only [hread, Option.map_some]
    rfl
  | ofNat n =>
    rw [DateTime.yearText]
    by_cases hn : n < 10000
    · have hlen : (Digits.padded 4 n).length = 4 := Digits.length_padded (by decide) hn
      have hread := field?_padded (Nat.le_of_eq hlen) hrest
      obtain ⟨c, tail, h, hc⟩ := exists_padded_eq_cons 4 n
      rw [if_pos hn, List.nil_append, year?, skipBlanks_padded]
      rw [h] at hread ⊢
      -- The first digit is no sign.
      split
      case h_1 heq =>
        obtain rfl := (List.cons.inj heq).1
        simp at hc
      case h_2 heq =>
        obtain rfl := (List.cons.inj heq).1
        simp at hc
      case h_3 =>
        rw [hread]
        rfl
    · have hread := field?_length_padded 4 n hrest
      rw [if_neg hn, List.append_assoc, List.singleton_append, year?,
        skipBlanks_cons (by decide)]
      simp only [hread, Option.map_some]
      rfl

theorem daysInMonth_le (year : Int) (month : Nat) : daysInMonth year month ≤ 31 := by
  rw [daysInMonth]
  split
  · split <;> decide
  · split <;> decide

/-- The month and the day of a date have two digits at most. -/
theorem month_day_lt (t : DateTime) : t.month < 100 ∧ t.day < 100 := by
  obtain ⟨-, ⟨-, hmonth⟩, -, hday⟩ := t.validDate
  have hdays := daysInMonth_le t.year t.month
  omega

theorem date?_dateText (t : DateTime) {rest : List Char} (hrest : Digits.End rest) :
    date? (t.dateText ++ rest) = some ((t.year, t.month, t.day), rest) := by
  obtain ⟨hmonth, hday⟩ := month_day_lt t
  have hend : '-'.isDigit = false := by decide
  have hmark : isBlank '-' = false := by decide
  simp only [DateTime.dateText, List.append_assoc, List.cons_append, List.nil_append, date?,
    year?_yearText t.year (.cons hend _), separator?_cons hmark,
    spacedField?_pair hmonth (.cons hend _), spacedField?_pair hday hrest,
    Option.bind_eq_bind, Option.bind_some]

theorem clock?_timeText (t : DateTime) {rest : List Char} (hrest : Digits.End rest) :
    clock? (t.timeText ++ rest) = some ((t.hour, t.minute, t.second), rest) := by
  obtain ⟨hhour, hminute, hsecond, -⟩ := t.validTime
  have hhour : t.hour < 100 := by omega
  have hminute : t.minute < 100 := by omega
  have hsecond : t.second < 100 := by omega
  have hend : ':'.isDigit = false := by decide
  have hmark : isBlank ':' = false := by decide
  simp only [DateTime.timeText, List.append_assoc, List.cons_append, List.nil_append, clock?,
    spacedField?_pair hhour (.cons hend _), separator?_cons hmark,
    spacedField?_pair hminute (.cons hend _), spacedField?_pair hsecond hrest,
    Option.bind_eq_bind, Option.bind_some]

/-! ### Fractions -/

/-- A fraction of at most nine places counts in units of its last place. -/
theorem nanosecond?_padded {width n : Nat} (hwidth : 0 < width) (hle : width ≤ 9)
    (hn : n < 10 ^ width) :
    nanosecond? ('.' :: Digits.padded width n) = some (n * 10 ^ (9 - width), []) := by
  have hlen := Digits.length_padded hwidth hn
  have hdigits : ∀ c ∈ Digits.padded width n, c.isDigit = true := fun c =>
    Digits.isDigit_of_mem_padded
  have hspan := Digits.span_append_of_isDigit hdigits .nil
  obtain ⟨c, tail, h, -⟩ := exists_padded_eq_cons width n
  rw [List.append_nil] at hspan
  rw [nanosecond?, hspan]
  simp only [if_neg (show Digits.padded width n ≠ [] by simp [h]),
    List.take_of_length_le (Nat.le_trans (Nat.le_of_eq hlen) hle), Digits.value_padded, hlen]
  rfl

/-- The places that are left out of a fraction are zeros. -/
theorem nanosecond?_fractionText {n : Nat} (hn : n < 1000000000) :
    nanosecond? (DateTime.fractionText n) = some (n, []) := by
  rw [DateTime.fractionText]
  split_ifs with hzero hmilli hmicro
  · rw [hzero]
    rfl
  · have hdvd := Nat.div_mul_cancel (Nat.dvd_of_mod_eq_zero hmilli)
    have hlt : n / 1000000 < 10 ^ 3 := by omega
    rw [nanosecond?_padded (by decide) (by decide) hlt]
    exact congrArg (fun m => some (m, [])) hdvd
  · have hdvd := Nat.div_mul_cancel (Nat.dvd_of_mod_eq_zero hmicro)
    have hlt : n / 1000 < 10 ^ 6 := by omega
    rw [nanosecond?_padded (by decide) (by decide) hlt]
    exact congrArg (fun m => some (m, [])) hdvd
  · have hlt : n < 10 ^ 9 := hn
    rw [nanosecond?_padded (by decide) (by decide) hlt, Nat.sub_self, Nat.pow_zero, Nat.mul_one]

end Calendar

open Calendar

namespace DateTime

theorem end_fractionText (n : Nat) : Digits.End (fractionText n) := by
  rw [fractionText]
  split_ifs
  · exact .nil
  all_goals exact .cons (by decide) _

/-- The fields of a date-time are fields of one. -/
theorem ofFields?_self (t : DateTime) :
    ofFields? t.year t.month t.day t.hour t.minute t.second t.nanosecond = some t :=
  dif_pos ⟨t.validDate, t.validTime⟩

/-- A printed date-time is read as itself. -/
theorem ofText?_isoText (t : DateTime) : ofText? t.isoText = some t := by
  have hdate := date?_dateText t (.cons (by decide : 'T'.isDigit = false)
    (t.timeText ++ fractionText t.nanosecond))
  have hclock := clock?_timeText t (end_fractionText t.nanosecond)
  have hfraction := nanosecond?_fractionText t.validTime.2.2.2
  have hread : read? t.isoText = some (t, []) := by
    simp only [isoText, List.append_assoc, List.cons_append, List.nil_append, read?, hdate,
      separator?_cons (by decide : isBlank 'T' = false), hclock, hfraction, ofFields?_self,
      Option.bind_eq_bind, Option.bind_some]
  rw [ofText?, hread]
  rfl

end DateTime

end SqlSelect
