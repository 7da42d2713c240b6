import SqlSelect.Proofs.Calendar.IsoText
import SqlSelect.Proofs.Text.DigitOrder
import SqlSelect.Value

/-!
# Date-times in order

Date-times are ordered by the date, then by the second of the day, then by the
fraction of that second, which in a leap second is a whole second or more. The fields
of a literal are filled with zeros to a width of their own, so literals compare field
by field, like the date-times without their fractions. A leap second is printed as
second 60 of its minute, behind second 59 and before the next minute, where its
fraction puts it.

## Main definitions

* `DateTime.DateBefore` and `DateTime.ClockLE`: the order of dates and of times of day;
* `DateTime.wholeSecond`: the start of the second that a date-time is in.

## Main statements

* `DateTime.eq_of_le_of_le`: only equal date-times are at the same place in the order;
* `DateTime.sqlText_append_le_iff`: printed date-times are in the order of their seconds.
-/

namespace SqlSelect

open Calendar

namespace DateTime

/-! ### Order in time -/

def SameDate (a b : DateTime) : Prop :=
  a.year = b.year ∧ a.month = b.month ∧ a.day = b.day

def DateBefore (a b : DateTime) : Prop :=
  a.year < b.year ∨ a.year = b.year ∧ (a.month < b.month ∨ a.month = b.month ∧ a.day < b.day)

/-- The second of the day; a leap second belongs to the second before it. -/
def secondOfDay (t : DateTime) : Nat := (t.hour * 60 + t.minute) * 60 + min t.second 59

/-- The nanoseconds since the second of the day began; in a leap second they are a
    whole second or more. -/
def fraction (t : DateTime) : Nat :=
  if t.second = 60 then 1000000000 + t.nanosecond else t.nanosecond

/-- The time of day is not later: by the second of the day, then by the fraction. -/
def ClockLE (a b : DateTime) : Prop :=
  a.secondOfDay < b.secondOfDay ∨ a.secondOfDay = b.secondOfDay ∧ a.fraction ≤ b.fraction

/-- Date-times are ordered by the date, then by the time of day. -/
instance : LE DateTime where
  le a b := a.DateBefore b ∨ a.SameDate b ∧ a.ClockLE b

/-- The start of the second that a date-time is in. -/
def wholeSecond (t : DateTime) : DateTime :=
  { t with
    nanosecond := 0
    validTime := ⟨t.validTime.1, t.validTime.2.1, t.validTime.2.2.1, by decide⟩ }

/-- Only a leap second has a fraction of a whole second. -/
theorem fraction_div (t : DateTime) : t.fraction / 1000000000 = t.second / 60 := by
  obtain ⟨-, -, hsecond, hnano⟩ := t.validTime
  rw [fraction]
  split_ifs <;> omega

theorem fraction_wholeSecond (t : DateTime) :
    t.wholeSecond.fraction = t.second / 60 * 1000000000 := by
  obtain ⟨-, -, hsecond, -⟩ := t.validTime
  show (if t.second = 60 then 1000000000 + 0 else 0) = t.second / 60 * 1000000000
  split_ifs <;> omega

variable {a b : DateTime}

theorem le_iff : a ≤ b ↔ a.DateBefore b ∨ a.SameDate b ∧ a.ClockLE b := Iff.rfl

theorem le_self (t : DateTime) : t ≤ t := .inr ⟨⟨rfl, rfl, rfl⟩, .inr ⟨rfl, Nat.le_refl _⟩⟩

/-- A whole second is ordered by its date, and by its second of the day and whether it is a
    leap second. -/
theorem wholeSecond_le_iff :
    a.wholeSecond ≤ b.wholeSecond ↔ a.DateBefore b ∨ a.SameDate b ∧
      (a.secondOfDay < b.secondOfDay ∨
        a.secondOfDay = b.secondOfDay ∧ a.second / 60 ≤ b.second / 60) := by
  have hclock : a.wholeSecond.ClockLE b.wholeSecond ↔ a.secondOfDay < b.secondOfDay ∨
      a.secondOfDay = b.secondOfDay ∧ a.second / 60 ≤ b.second / 60 := by
    show a.secondOfDay < b.secondOfDay ∨ a.secondOfDay = b.secondOfDay ∧
      a.wholeSecond.fraction ≤ b.wholeSecond.fraction ↔ _
    rw [fraction_wholeSecond, fraction_wholeSecond]
    omega
  rw [le_iff, hclock]
  exact Iff.rfl

/-- The second of the day and the fraction tell the time of day. -/
theorem time_eq (hsecond : a.secondOfDay = b.secondOfDay) (hfraction : a.fraction = b.fraction) :
    (a.hour = b.hour ∧ a.minute = b.minute) ∧ a.second = b.second ∧
      a.nanosecond = b.nanosecond := by
  obtain ⟨-, haminute, hasecond, hanano⟩ := a.validTime
  obtain ⟨-, hbminute, hbsecond, hbnano⟩ := b.validTime
  simp only [secondOfDay, fraction] at hsecond hfraction
  split_ifs at hfraction <;> omega

/-- Only equal date-times are at the same place in the order. -/
theorem eq_of_le_of_le (hab : a ≤ b) (hba : b ≤ a) : a = b := by
  rw [le_iff, DateBefore, SameDate, ClockLE] at hab hba
  have hdate : a.year = b.year ∧ a.month = b.month ∧ a.day = b.day := by omega
  have hclock : a.secondOfDay = b.secondOfDay ∧ a.fraction = b.fraction := by omega
  obtain ⟨hyear, hmonth, hday⟩ := hdate
  obtain ⟨⟨hhour, hminute⟩, hsecond, hnano⟩ := time_eq hclock.1 hclock.2
  have hfields := ofFields?_self a
  rw [hyear, hmonth, hday, hhour, hminute, hsecond, hnano, ofFields?_self b] at hfields
  exact (Option.some.inj hfields).symm

/-- Rounding down to the second keeps the order. -/
theorem wholeSecond_le_wholeSecond (h : a ≤ b) : a.wholeSecond ≤ b.wholeSecond := by
  have hfraction (hle : a.fraction ≤ b.fraction) : a.second / 60 ≤ b.second / 60 := by
    rw [← fraction_div, ← fraction_div]
    exact Nat.div_le_div_right hle
  rw [wholeSecond_le_iff]
  exact h.imp_right (And.imp_right (Or.imp_right (And.imp_right hfraction)))

/-! ### Order as text -/

/-- A year of four digits fills its field and has no sign. -/
theorem yearText_of_le {year : Int} (h : 0 ≤ year ∧ year ≤ 9999) :
    yearText year = Digits.padded 4 year.toNat := by
  obtain ⟨n, rfl⟩ := Int.eq_ofNat_of_zero_le h.1
  have hn : n < 10000 := by omega
  rw [← Int.ofNat_eq_natCast, yearText, if_pos hn]
  rfl

theorem pair_append_le_iff {m n : Nat} (hm : m < 100) (hn : n < 100) (r₁ r₂ : List Char) :
    Digits.padded 2 m ++ r₁ ≤ Digits.padded 2 n ++ r₂ ↔ m < n ∨ m = n ∧ r₁ ≤ r₂ :=
  Digits.padded_append_le_iff (by decide) hm hn r₁ r₂

theorem dateText_append_le_iff (ha : 0 ≤ a.year ∧ a.year ≤ 9999)
    (hb : 0 ≤ b.year ∧ b.year ≤ 9999) (r₁ r₂ : List Char) :
    a.dateText ++ r₁ ≤ b.dateText ++ r₂ ↔ a.DateBefore b ∨ a.SameDate b ∧ r₁ ≤ r₂ := by
  obtain ⟨hamonth, haday⟩ := month_day_lt a
  obtain ⟨hbmonth, hbday⟩ := month_day_lt b
  have hayear : a.year.toNat < 10 ^ 4 := by omega
  have hbyear : b.year.toNat < 10 ^ 4 := by omega
  have hlt : a.year.toNat < b.year.toNat ↔ a.year < b.year := by omega
  have heq : a.year.toNat = b.year.toNat ↔ a.year = b.year := by omega
  simp only [dateText, yearText_of_le ha, yearText_of_le hb, List.append_assoc,
    List.cons_append, List.nil_append, Digits.cons_le_cons_self,
    Digits.padded_append_le_iff (by decide) hayear hbyear,
    pair_append_le_iff hamonth hbmonth, pair_append_le_iff haday hbday, hlt, heq,
    DateBefore, SameDate]
  tauto

/-- Second 60 comes behind second 59 in the digits as it does by its fraction. -/
theorem timeText_append_le_iff (r : List Char) :
    a.timeText ++ r ≤ b.timeText ++ r ↔ a.secondOfDay < b.secondOfDay ∨
      a.secondOfDay = b.secondOfDay ∧ a.second / 60 ≤ b.second / 60 := by
  obtain ⟨hahour, haminute, hasecond, -⟩ := a.validTime
  obtain ⟨hbhour, hbminute, hbsecond, -⟩ := b.validTime
  have hhour := pair_append_le_iff (m := a.hour) (n := b.hour) (by omega) (by omega)
  have hminute := pair_append_le_iff (m := a.minute) (n := b.minute) (by omega) (by omega)
  have hsecond := pair_append_le_iff (m := a.second) (n := b.second) (by omega) (by omega)
  simp only [timeText, List.append_assoc, List.cons_append, List.nil_append,
    Digits.cons_le_cons_self, hhour, hminute, hsecond, le_refl, and_true]
  rw [secondOfDay, secondOfDay]
  omega

/-- Printed date-times are in the order of their seconds. -/
theorem sqlText_append_le_iff (ha : 0 ≤ a.year ∧ a.year ≤ 9999)
    (hb : 0 ≤ b.year ∧ b.year ≤ 9999) (r : List Char) :
    a.sqlText ++ r ≤ b.sqlText ++ r ↔ a.wholeSecond ≤ b.wholeSecond := by
  simp only [sqlText, List.append_assoc, List.cons_append, List.nil_append,
    dateText_append_le_iff ha hb, Digits.cons_le_cons_self, timeText_append_le_iff,
    wholeSecond_le_iff]

theorem length_sqlText (ha : 0 ≤ a.year ∧ a.year ≤ 9999) : a.sqlText.length = 19 := by
  obtain ⟨hmonth, hday⟩ := month_day_lt a
  obtain ⟨hhour, hminute, hsecond, -⟩ := a.validTime
  have hyear : a.year.toNat < 10 ^ 4 := by omega
  have hpair {n : Nat} (hn : n < 100) : (Digits.padded 2 n).length = 2 :=
    Digits.length_padded (by decide) hn
  have hhour : (Digits.padded 2 a.hour).length = 2 := hpair (by omega)
  have hminute : (Digits.padded 2 a.minute).length = 2 := hpair (by omega)
  have hsecond : (Digits.padded 2 a.second).length = 2 := hpair (by omega)
  simp only [sqlText, dateText, timeText, yearText_of_le ha, List.length_append,
    List.length_singleton, Digits.length_padded (by decide) hyear, hpair hmonth, hpair hday,
    hhour, hminute, hsecond]

theorem sql_le_sql_iff (ha : 0 ≤ a.year ∧ a.year ≤ 9999) (hb : 0 ≤ b.year ∧ b.year ≤ 9999) :
    (Value.dateTime a).sql ≤ (Value.dateTime b).sql ↔ a.wholeSecond ≤ b.wholeSecond := by
  rw [← sqlText_append_le_iff ha hb ['\''], String.le_iff_toList_le]
  simp [Value.sql, Digits.cons_le_cons_self]

/-- Date-times of the years from 0 to 9999 are in the same order as their literals, which
    are all of one length; two literals are equal where the date-times are in the same
    second, and a leap second is a second of its own. -/
theorem sql_sorts_by_time {a b : DateTime} (ha : 0 ≤ a.year ∧ a.year ≤ 9999)
    (hb : 0 ≤ b.year ∧ b.year ≤ 9999) :
    (a ≤ b → (Value.dateTime a).sql ≤ (Value.dateTime b).sql) ∧
      (Value.dateTime a).sql.length = (Value.dateTime b).sql.length ∧
      ((Value.dateTime a).sql = (Value.dateTime b).sql ↔ a.wholeSecond = b.wholeSecond) := by
  refine ⟨fun h => (sql_le_sql_iff ha hb).2 (wholeSecond_le_wholeSecond h), ?_, fun h => ?_,
    fun h => ?_⟩
  · simp [Value.sql, length_sqlText ha, length_sqlText hb]
  · exact eq_of_le_of_le ((sql_le_sql_iff ha hb).1 h.le) ((sql_le_sql_iff hb ha).1 h.ge)
  · have hle : a.wholeSecond ≤ b.wholeSecond ∧ b.wholeSecond ≤ a.wholeSecond := by
      rw [h]
      exact ⟨le_self _, le_self _⟩
    exact String.le_antisymm ((sql_le_sql_iff ha hb).2 hle.1) ((sql_le_sql_iff hb ha).2 hle.2)

/-- The end of 2016, and the leap second behind it. -/
theorem sql_sorts_by_time_leapSecond :
    let last : DateTime := ⟨2016, 12, 31, 23, 59, 59, 900000000, by decide, by decide⟩
    let leap : DateTime := ⟨2016, 12, 31, 23, 59, 60, 250000000, by decide, by decide⟩
    last ≤ leap ∧ (Value.dateTime last).sql ≤ (Value.dateTime leap).sql ∧
      (Value.dateTime last).sql.length = (Value.dateTime leap).sql.length ∧
      (Value.dateTime last).sql ≠ (Value.dateTime leap).sql := by
  intro last leap
  have hle : last ≤ leap := .inr ⟨⟨rfl, rfl, rfl⟩, .inr ⟨rfl, by decide⟩⟩
  have hsecond : last.wholeSecond ≠ leap.wholeSecond := by decide
  obtain ⟨hsorted, hlen, heq⟩ := sql_sorts_by_time (a := last) (b := leap) (by decide) (by decide)
  exact ⟨hle, hsorted hle, hlen, fun h => hsecond (heq.1 h)⟩

end DateTime

end SqlSelect
