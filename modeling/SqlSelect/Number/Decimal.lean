import SqlSelect.Text.Digits

/-!
# Fixed-point decimals

A decimal is a sign, a coefficient of up to 96 bits and a scale of up to 28
places. The scale belongs to the number: `10.250` prints as it was written, and
equals `10.25` only as a number.

## Main definitions

* `Decimal`, its numeric equality `Decimal.equal` and its text `Decimal.text`;
* `Decimal.ofPlain?` and `Decimal.ofText?`: reading, without and with an
  exponent.
-/

namespace SqlSelect

/-- The bound of coefficients, `2 ^ 96`. -/
abbrev Decimal.coefficientBound : Nat := 79228162514264337593543950336

/-- The number `± coefficient · 10 ^ -scale`. -/
structure Decimal where
  negative : Bool
  coefficient : Nat
  scale : Nat
  coefficient_lt : coefficient < Decimal.coefficientBound
  scale_le : scale ≤ 28
deriving DecidableEq

namespace Decimal

/-- Numeric equality: the scale does not matter, nor does the sign of a zero. -/
def equal (a b : Decimal) : Bool :=
  a.coefficient * Nat.pow 10 b.scale == b.coefficient * Nat.pow 10 a.scale &&
    (a.negative == b.negative || a.coefficient == 0)

/-- A minus sign if the number is negative, the digits before the point, and as
    many digits behind it as the scale says. -/
def text (d : Decimal) : List Char :=
  let ds := Digits.padded (d.scale + 1) d.coefficient
  let whole := ds.take (ds.length - d.scale)
  let places := ds.drop (ds.length - d.scale)
  (if d.negative then ['-'] else []) ++ whole ++ (if places = [] then [] else '.' :: places)

/-- A decimal from its parts, where they are in range. -/
def ofSignedParts? (negative : Bool) (coefficient scale : Nat) : Option Decimal :=
  if h : coefficient < coefficientBound ∧ scale ≤ 28 then
    some ⟨negative, coefficient, scale, h.1, h.2⟩
  else none

/-- The same, but a zero has no minus sign. -/
def ofParts? (negative : Bool) (coefficient scale : Nat) : Option Decimal :=
  ofSignedParts? (negative && coefficient != 0) coefficient scale

/-- An integer as a decimal without places, where it has at most 96 bits. -/
def ofInt? (n : Int) : Option Decimal := ofParts? (decide (n < 0)) n.natAbs 0

/-! ### Reading -/

/-- Ends a number at the first character that has no room: a digit from `5` up
    adds one to the last place, and a separator or a second point counts as the
    digit `0`. A coefficient that grows to 97 bits gives up its last place, if it
    has one. -/
def roundAt (negative : Bool) (coefficient scale : Nat) (next : Char) : Option Decimal :=
  if !(next.isDigit || next == '_' || next == '.') then none
  else if next.isDigit && '5' ≤ next then
    if coefficient + 1 < coefficientBound then ofParts? negative (coefficient + 1) scale
    else if scale = 0 then none
    -- Rounded up to 97 bits: one place fewer.
    else ofParts? negative ((coefficient + 5) / 10) (scale - 1)
  else ofParts? negative coefficient scale

/-- Reads on after the sign. `point` says that the decimal point has been read and
    `begun` that a digit has. Separators `_` may stand after the first digit. A
    digit after the point that has no room, in 96 bits or in 28 places, is rounded
    and ends the number; before the point it is an error. -/
def readFrom (negative point begun : Bool) (coefficient scale : Nat) :
    List Char → Option Decimal
  | [] => if begun then ofParts? negative coefficient scale else none
  | c :: rest =>
    if point && scale == 28 then roundAt negative coefficient scale c
    else if c.isDigit then
      let grown := coefficient * 10 + (c.toNat - '0'.toNat)
      if grown < coefficientBound then
        readFrom negative point true grown (if point then scale + 1 else 0) rest
      else if point then roundAt negative coefficient scale c
      else none
    else if c = '.' ∧ !point then readFrom negative true begun coefficient scale rest
    else if c = '_' ∧ begun then readFrom negative point begun coefficient scale rest
    else none

/-- Reads a decimal without an exponent: a sign, digits, and a point before,
    between or behind them. -/
def ofPlain? : List Char → Option Decimal
  | '-' :: rest => readFrom true false false 0 0 rest
  | '+' :: rest => readFrom false false false 0 0 rest
  | cs => readFrom false false false 0 0 cs

/-- An exponent without its minus sign: digits after an optional plus sign. -/
def exponentDigits? : List Char → Option Nat
  | '+' :: rest => digitsOnly? rest
  | cs => digitsOnly? cs
where
  digitsOnly? (cs : List Char) : Option Nat :=
    if cs ≠ [] ∧ cs.all Char.isDigit then some (Digits.value cs) else none

/-- The number `d · 10 ^ -places`. Digits beyond the 28th place are cut off, and
    the first of them rounds the last place that stays. The sign stays as well, even
    if nothing else is left of the number. -/
def shiftDown? (d : Decimal) (places : Nat) : Option Decimal :=
  if 28 < places then none
  else if d.scale + places ≤ 28 then ofParts? d.negative d.coefficient (d.scale + places)
  else
    -- The number of digits beyond the 28th place.
    let cut := d.scale + places - 28
    ofSignedParts? d.negative ((d.coefficient / Nat.pow 10 (cut - 1) + 5) / 10) 28

/-- The number `d · 10 ^ places`: the scale shrinks as far as it can, then the
    coefficient grows. -/
def shiftUp? (d : Decimal) (places : Nat) : Option Decimal :=
  if places ≤ d.scale then ofParts? d.negative d.coefficient (d.scale - places)
  else if 28 < places then none
  else ofParts? d.negative (d.coefficient * Nat.pow 10 (places - d.scale)) 0

/-- Reads a decimal whose digits are followed by `e` or `E` and a power of ten of
    at most 28. -/
def ofScientific? (cs : List Char) : Option Decimal :=
  let isMark := fun c => c == 'e' || c == 'E'
  match cs.dropWhile (fun c => !isMark c) with
  | [] => none
  | _ :: power => do
    let base ← ofPlain? (cs.takeWhile fun c => !isMark c)
    match power with
    | '-' :: digits => shiftDown? base (← exponentDigits? digits)
    | digits => shiftUp? base (← exponentDigits? digits)

/-- Reads a decimal, with or without an exponent. -/
def ofText? (cs : List Char) : Option Decimal := ofPlain? cs <|> ofScientific? cs

end Decimal

end SqlSelect
