import SqlSelect.Calendar.DateTime
import SqlSelect.Document.Toml.Scan
import SqlSelect.Document.Tree
import SqlSelect.Number.Literal

/-!
# Numbers and date-times in TOML

Integers in four bases, floating-point numbers, and date-times. Nothing here needs
the value of a date-time: it counts as a table whose one member nobody asks for, so
that it can stand for a record all of whose fields are left out.

## Main definitions

* `Toml.number?`: integers and floating-point numbers;
* `Toml.dateTime?`: dates, times and both together.
-/

namespace SqlSelect

namespace Toml

/-! ### Numbers -/

/-- Digits with single separators `_` between them, up to the first character that
    is neither. The separator needs a digit on both sides. -/
def moreDigits (isDigit : Char → Bool) : List Char → Option (List Char × List Char)
  | [] => some ([], [])
  | '_' :: c :: rest =>
    if isDigit c then consChar c (moreDigits isDigit rest) else none
  | c :: rest =>
    if isDigit c then consChar c (moreDigits isDigit rest)
    else if c = '_' then none
    else some ([], c :: rest)

/-- At least one digit, with separators. -/
def digits? (isDigit : Char → Bool) : List Char → Option (List Char × List Char)
  | c :: rest => if isDigit c then consChar c (moreDigits isDigit rest) else none
  | [] => none

/-- The digits before a point: a zero stands alone. -/
def whole? : List Char → Option (List Char × List Char)
  | '0' :: rest => some (['0'], rest)
  | cs => digits? Char.isDigit cs

/-- An exponent at the head of a text, or nothing. -/
def exponent? (cs : List Char) : Option (Option Int × List Char) :=
  match cs with
  | c :: rest =>
    if c = 'e' ∨ c = 'E' then do
      let (negative, rest) := NumberLiteral.spanSign rest
      let (ds, rest) ← digits? Char.isDigit rest
      let n : Int := Digits.value ds
      some (some (if negative then -n else n), rest)
    else some (none, cs)
  | [] => some (none, [])

/-- A point with digits at the head of a text, or nothing. -/
def fraction? : List Char → Option (List Char × List Char)
  | '.' :: rest => digits? Char.isDigit rest
  | cs => some ([], cs)

/-- An integer as a tree, if it fits into 64 bits with a sign. -/
def integerTree? (n : Int) : Option Tree :=
  if (Int64.ofInt n).toInt = n then some (.int n) else none

/-- An integer in the base of its mark. -/
def basedInteger? (base : Nat) (cs : List Char) : Option (Tree × List Char) := do
  let valid := fun c => (hexDigit? c).any (· < base)
  let (ds, rest) ← digits? valid cs
  let n := ds.foldl (fun n c => base * n + (hexDigit? c).getD 0) 0
  some (← integerTree? n, rest)

/-- A decimal number after its sign. A positive number beyond the largest double is
    an error. -/
def decimalNumber? (negative : Bool) (cs : List Char) : Option (Tree × List Char) := do
  let (whole, rest) ← whole? cs
  let (fraction, rest) ← fraction? rest
  let (exponent, rest) ← exponent? rest
  if fraction = [] ∧ exponent = none then
    let n : Int := Digits.value whole
    some (← integerTree? (if negative then -n else n), rest)
  else
    let x := NumberLiteral.toDouble ⟨negative, whole, fraction, exponent.getD 0⟩
    if x = .infinite false then none else some (.float x, rest)

/-- A number after its sign. -/
def unsigned? (negative : Bool) : List Char → Option (Tree × List Char)
  | 'i' :: 'n' :: 'f' :: rest => some (.float (.infinite negative), rest)
  | 'n' :: 'a' :: 'n' :: rest => some (.float .nan, rest)
  | cs => decimalNumber? negative cs

/-- A number at the head of a text. Marks of a base need a number without a sign. -/
def number? : List Char → Option (Tree × List Char)
  | '0' :: 'x' :: rest => basedInteger? 16 rest
  | '0' :: 'o' :: rest => basedInteger? 8 rest
  | '0' :: 'b' :: rest => basedInteger? 2 rest
  | '-' :: rest => unsigned? true rest
  | '+' :: rest => unsigned? false rest
  | cs => unsigned? false cs

/-! ### Date-times -/

/-- A number of exactly `width` digits. -/
def fixed? (width : Nat) (cs : List Char) : Option (Nat × List Char) :=
  let ds := cs.take width
  if ds.length = width ∧ ds.all Char.isDigit then some (Digits.value ds, cs.drop width)
  else none

def after? (mark : Char) : List Char → Option (List Char)
  | c :: rest => if c = mark then some rest else none
  | [] => none

def date? (cs : List Char) : Option (List Char) := do
  let (year, rest) ← fixed? 4 cs
  let (month, rest) ← fixed? 2 (← after? '-' rest)
  let (day, rest) ← fixed? 2 (← after? '-' rest)
  if Calendar.ValidDate year month day then some rest else none

/-- Hour, minute and second with an optional fraction. -/
def time? (cs : List Char) : Option (List Char) := do
  let (hour, rest) ← fixed? 2 cs
  let (minute, rest) ← fixed? 2 (← after? ':' rest)
  let (second, rest) ← fixed? 2 (← after? ':' rest)
  if Calendar.ValidTime hour minute second 0 then
    match rest with
    | '.' :: c :: more =>
      some (if c.isDigit then more.dropWhile Char.isDigit else rest)
    | _ => some rest
  else none

def offset? : List Char → Option (List Char)
  | 'Z' :: rest | 'z' :: rest => some rest
  | c :: rest => do
    if c = '+' ∨ c = '-' then
      let (hour, rest) ← fixed? 2 rest
      let (minute, rest) ← fixed? 2 (← after? ':' rest)
      if hour < 24 ∧ minute < 60 then some rest else none
    else none
  | [] => none

/-- A date, with or without a time and an offset, or a time alone. -/
def dateTime? (cs : List Char) : Option (List Char) :=
  match date? cs with
  | none => time? cs
  | some rest =>
    let timed := match rest with
      | c :: more => if c = 'T' ∨ c = 't' ∨ c = ' ' then time? more else none
      | [] => none
    match timed with
    | none => some rest
    | some rest => some ((offset? rest).getD rest)

/-- The tree of every date-time. -/
def dateTimeTree : Tree := .table [("date-time", .unusable)]

/-- A date-time or a number at the head of a text. -/
def scalar? (cs : List Char) : Option (Tree × List Char) :=
  match dateTime? cs with
  | some rest => some (dateTimeTree, rest)
  | none => number? cs

end Toml

end SqlSelect
