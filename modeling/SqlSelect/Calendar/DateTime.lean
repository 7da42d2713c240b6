import SqlSelect.Text.Digits

/-!
# Civil date-times

A date-time without a time zone: a day of the proleptic Gregorian calendar and a
time of day down to the nanosecond. Second 60 is a leap second and may stand in
any minute.

## Main definitions

* `DateTime`, with the validity of its fields in the type;
* `DateTime.sqlText`: the text inside an SQL literal, without the fraction of a
  second;
* `DateTime.isoText`: the text in documents, with a fraction where there is one.
-/

namespace SqlSelect

namespace Calendar

def isLeapYear (year : Int) : Bool :=
  year % 4 = 0 && (year % 100 ≠ 0 || year % 400 = 0)

def daysInMonth (year : Int) (month : Nat) : Nat :=
  if month = 2 then (if isLeapYear year then 29 else 28)
  else if month = 4 ∨ month = 6 ∨ month = 9 ∨ month = 11 then 30
  else 31

/-- The least and the greatest year that a date-time may have. -/
def leastYear : Int := -262143
@[inherit_doc leastYear] def greatestYear : Int := 262142

/-- The year is in range, and the month and the day exist in it. -/
abbrev ValidDate (year : Int) (month day : Nat) : Prop :=
  (leastYear ≤ year ∧ year ≤ greatestYear) ∧ (1 ≤ month ∧ month ≤ 12) ∧
    (1 ≤ day ∧ day ≤ daysInMonth year month)

/-- The fields are a time of day; the second may be 60. -/
abbrev ValidTime (hour minute second nanosecond : Nat) : Prop :=
  hour < 24 ∧ minute < 60 ∧ second ≤ 60 ∧ nanosecond < 1000000000

end Calendar

open Calendar

/-- A date and a time of day, without a time zone. A leap second is second 60. Where it is
    counted as a fraction of a second or more on top of second 59, such a fraction can also
    come to stand on another second, by being set there or through an offset with seconds.
    There it would be written as the second that follows and has no text of its own: these
    times are outside the type. -/
structure DateTime where
  year : Int
  month : Nat
  day : Nat
  hour : Nat
  minute : Nat
  second : Nat
  nanosecond : Nat
  validDate : ValidDate year month day
  validTime : ValidTime hour minute second nanosecond
deriving DecidableEq

namespace DateTime

/-- A date-time from its fields, where they exist. -/
def ofFields? (year : Int) (month day hour minute second nanosecond : Nat) :
    Option DateTime :=
  if h : ValidDate year month day ∧ ValidTime hour minute second nanosecond then
    some ⟨year, month, day, hour, minute, second, nanosecond, h.1, h.2⟩
  else none

/-- Four digits at least, with a sign for a year of five digits and for a year
    before zero. -/
def yearText (year : Int) : List Char :=
  match year with
  | .ofNat n => (if n < 10000 then [] else ['+']) ++ Digits.padded 4 n
  | .negSucc n => '-' :: Digits.padded 4 (n + 1)

/-- `year-month-day`. -/
def dateText (t : DateTime) : List Char :=
  yearText t.year ++ ['-'] ++ Digits.padded 2 t.month ++ ['-'] ++ Digits.padded 2 t.day

/-- `hour:minute:second`. -/
def timeText (t : DateTime) : List Char :=
  Digits.padded 2 t.hour ++ [':'] ++ Digits.padded 2 t.minute ++ [':'] ++
    Digits.padded 2 t.second

/-- The fraction of a second in 3, 6 or 9 digits, as few as are exact; nothing for
    a whole second. -/
def fractionText (nanosecond : Nat) : List Char :=
  if nanosecond = 0 then []
  else if nanosecond % 1000000 = 0 then '.' :: Digits.padded 3 (nanosecond / 1000000)
  else if nanosecond % 1000 = 0 then '.' :: Digits.padded 6 (nanosecond / 1000)
  else '.' :: Digits.padded 9 nanosecond

/-- Date and time with a blank between them; the fraction is dropped. -/
def sqlText (t : DateTime) : List Char := t.dateText ++ [' '] ++ t.timeText

/-- Date and time with a `T` between them, and the fraction. -/
def isoText (t : DateTime) : List Char :=
  t.dateText ++ ['T'] ++ t.timeText ++ fractionText t.nanosecond

end DateTime

end SqlSelect
