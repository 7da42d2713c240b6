import SqlSelect.Number.Double
import SqlSelect.Text.Digits

/-!
# Shortest decimal digits of a double

The fewest decimal digits that read back as a given double, and among those the
ones nearest to its exact value.

## Main definitions

* `Scientific`: a digit string with a power of ten;
* `Double.shortest`: the shortest digits of a finite double.

## Design notes

On the grid of multiples of a power of ten, only the two neighbours of the exact
value can be nearest to it. If any point of the grid reads back as the double,
one of the two does, so trying both on ever finer grids finds the fewest digits.
Should no grid of up to 17 digits serve, the exact expansion does, which always
reads back.
-/

namespace SqlSelect

/-- The number `digits · 10 ^ exponent`. -/
structure Scientific where
  digits : Nat
  exponent : Int
deriving DecidableEq

/-- The same number without zeros at the end of its digits; at most `fuel` zeros
    are taken away. -/
def Scientific.trim : Nat → Scientific → Scientific
  | 0, s => s
  | fuel + 1, s =>
    if s.digits % 10 = 0 ∧ s.digits ≠ 0 then
      Scientific.trim fuel ⟨s.digits / 10, s.exponent + 1⟩
    else s

/-- Which of two decimals, both equally near to a double, stands for it: the one
    farther from zero, or the one with an even last digit. -/
inductive TieRule where
  | up
  | even
deriving DecidableEq

namespace Double

/-- The quotient of `units / unitsPerOne` by `10 ^ exponent`, as numerator and
    denominator. -/
def gridRatio (units : Nat) : Int → Nat × Nat
  | .ofNat k => (units, unitsPerOne * Nat.pow 10 k)
  | .negSucc k => (units * Nat.pow 10 (k + 1), unitsPerOne)

/-- The point of the grid of multiples of `10 ^ exponent` that stands for the
    positive double `d`: the nearer of the two neighbours of its exact value,
    among those that read back as `d`. -/
def gridPoint (tie : TieRule) (d : Double) (exponent : Int) : Option Nat :=
  let (num, den) := gridRatio d.units exponent
  let low := num / den
  let rest := num % den
  let lowReads := ofDecimal d.isNegative low exponent = d
  let highReads := ofDecimal d.isNegative (low + 1) exponent = d
  if lowReads ∧ highReads then
    if 2 * rest < den then some low
    else if den < 2 * rest then some (low + 1)
    else match tie with
      | .up => some (low + 1)
      | .even => some (low + low % 2)
  else if lowReads then some low
  else if highReads then some (low + 1)
  else none

/-- The number of digits before the decimal point, negative if zeros follow the
    point: a positive double lies between `10 ^ (order - 1)` and `10 ^ order`. -/
def order (d : Double) : Int :=
  ((Digits.ofNat (d.units * Nat.pow 10 400 / unitsPerOne)).length : Int) - 400

/-- All digits of the exact value of a finite double. -/
def exactExpansion (d : Double) : Scientific := ⟨d.units * Nat.pow 5 1074, -1074⟩

/-- The point of the coarsest grid that has one, for a number of `order` digits before
    its point and grids of `17 - fuel` digits and finer. If there is none, the number
    stands for itself. -/
def coarsestPoint (grid : Int → Option Nat) (order : Int) (exact : Scientific) :
    Nat → Scientific
  | 0 => exact
  | fuel + 1 =>
    let exponent := order - (17 - fuel : Nat)
    match grid exponent with
    | some n => ⟨n, exponent⟩
    | none => coarsestPoint grid order exact fuel

/-- The fewest digits that read back as the finite double `d`, nearest to it, a
    tie settled by `tie`. Zero has the digit `0`. -/
def shortest (tie : TieRule) (d : Double) : Scientific :=
  if d.units = 0 then ⟨0, 0⟩
  else (coarsestPoint (gridPoint tie d) d.order d.exactExpansion 17).trim 1100

end Double

end SqlSelect
