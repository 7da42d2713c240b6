import SqlSelect.Calendar.Reader

/-!
# Date-times with an offset

A date-time together with its distance from universal time. Queries hold
date-times without a zone, so a zoned one gives up its offset in one of two ways:
it keeps the wall clock as written, or it is first moved to universal time.

## Main definitions

* `ZonedDateTime.wallClock`: the date-time as written;
* `ZonedDateTime.universal?`: the same instant in universal time;
* `ZonedDateTime.ofText?`: reading, with `Z` or a numeric offset at the end.
-/

namespace SqlSelect

open Calendar

/-- A wall clock and the minutes by which it is ahead of universal time. -/
structure ZonedDateTime where
  wallClock : DateTime
  offsetMinutes : Int

namespace Calendar

def nextDay (year : Int) (month day : Nat) : Int × Nat × Nat :=
  if day < daysInMonth year month then (year, month, day + 1)
  else if month < 12 then (year, month + 1, 1)
  else (year + 1, 1, 1)

def previousDay (year : Int) (month day : Nat) : Int × Nat × Nat :=
  if 1 < day then (year, month, day - 1)
  else if 1 < month then (year, month - 1, daysInMonth year (month - 1))
  else (year - 1, 12, 31)

/-- An offset at the end of a text: `Z`, or a sign with hours and minutes. -/
def offset? : List Char → Option Int
  | ['Z'] => some 0
  | sign :: rest => do
    let (hours, rest) ← field? 2 rest
    let (minutes, rest) ← field? 2 (← separator? ':' rest)
    if rest ≠ [] ∨ 23 < hours ∨ 59 < minutes then none
    else if sign = '+' then some (60 * hours + minutes)
    else if sign = '-' then some (-(60 * hours + minutes : Int))
    else none
  | [] => none

end Calendar

namespace ZonedDateTime

/-- The same instant in universal time. An offset is less than a day, so the date
    moves by one day at most. Seconds stay as they are. -/
def universal? (z : ZonedDateTime) : Option DateTime :=
  let t := z.wallClock
  let minutes : Int := 60 * t.hour + t.minute - z.offsetMinutes
  let (year, month, day) :=
    if minutes < 0 then previousDay t.year t.month t.day
    else if minutes < 1440 then (t.year, t.month, t.day)
    else nextDay t.year t.month t.day
  let ofDay := (minutes % 1440).toNat
  DateTime.ofFields? year month day (ofDay / 60) (ofDay % 60) t.second t.nanosecond

def ofText? (cs : List Char) : Option ZonedDateTime := do
  let (t, rest) ← DateTime.read? cs
  some ⟨t, ← offset? rest⟩

end ZonedDateTime

end SqlSelect
