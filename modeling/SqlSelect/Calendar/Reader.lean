import SqlSelect.Calendar.DateTime
import SqlSelect.Text.Blank

/-!
# Reading date-times

`DateTime.ofText?` reads `year-month-dayThour:minute:second` with an optional
fraction. Fields may be shorter than they are printed, and blanks may stand before
each field and each separator and at the end; nothing else may be left out or
added.

## Main definitions

* `DateTime.ofText?`: a date-time;
* `DateTime.ofDateText?`: a date alone, which stands for its midnight.
-/

namespace SqlSelect

namespace Calendar

/-- Up to `width` digits at the head of a text, at least one, and what follows. -/
def field? (width : Nat) (cs : List Char) : Option (Nat × List Char) :=
  let digits := (cs.take width).takeWhile Char.isDigit
  if digits = [] then none else some (Digits.value digits, cs.drop digits.length)

def spacedField? (width : Nat) (cs : List Char) : Option (Nat × List Char) :=
  field? width (skipBlanks cs)

/-- The text after a separator, which blanks may precede. -/
def separator? (mark : Char) (cs : List Char) : Option (List Char) :=
  match skipBlanks cs with
  | c :: rest => if c = mark then some rest else none
  | [] => none

/-- A year after blanks: up to four digits, or any number of them after a sign. -/
def year? (cs : List Char) : Option (Int × List Char) :=
  match skipBlanks cs with
  | '-' :: rest => (field? rest.length rest).map fun (n, more) => (-(n : Int), more)
  | '+' :: rest => (field? rest.length rest).map fun (n, more) => ((n : Int), more)
  | rest => (field? 4 rest).map fun (n, more) => ((n : Int), more)

def date? (cs : List Char) : Option ((Int × Nat × Nat) × List Char) := do
  let (year, rest) ← year? cs
  let (month, rest) ← spacedField? 2 (← separator? '-' rest)
  let (day, rest) ← spacedField? 2 (← separator? '-' rest)
  some ((year, month, day), rest)

def clock? (cs : List Char) : Option ((Nat × Nat × Nat) × List Char) := do
  let (hour, rest) ← spacedField? 2 cs
  let (minute, rest) ← spacedField? 2 (← separator? ':' rest)
  let (second, rest) ← spacedField? 2 (← separator? ':' rest)
  some ((hour, minute, second), rest)

/-- The nanoseconds of an optional fraction. Digits beyond the ninth are dropped. -/
def nanosecond? (cs : List Char) : Option (Nat × List Char) :=
  match cs with
  | '.' :: rest =>
    let (digits, rest) := Digits.span rest
    let kept := digits.take 9
    if digits = [] then none
    else some (Digits.value kept * Nat.pow 10 (9 - kept.length), rest)
  | _ => some (0, cs)

end Calendar

open Calendar

namespace DateTime

/-- Reads a date-time at the head of a text. -/
def read? (cs : List Char) : Option (DateTime × List Char) := do
  let ((year, month, day), rest) ← date? cs
  let ((hour, minute, second), rest) ← clock? (← separator? 'T' rest)
  let (nanosecond, rest) ← nanosecond? rest
  let t ← ofFields? year month day hour minute second nanosecond
  some (t, rest)

/-- Reads a date-time that fills a text, up to blanks at its ends. -/
def ofText? (cs : List Char) : Option DateTime := do
  let (t, rest) ← read? cs
  if skipBlanks rest = [] then some t else none

/-- Reads a date that fills a text: midnight of that day. -/
def ofDateText? (cs : List Char) : Option DateTime := do
  let ((year, month, day), rest) ← date? cs
  if skipBlanks rest = [] then ofFields? year month day 0 0 0 0 else none

end DateTime

end SqlSelect
