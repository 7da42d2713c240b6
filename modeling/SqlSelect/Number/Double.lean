/-!
# Double-precision numbers

A double is a NaN, an infinity, or an exact number `± significand · 2 ^ exponent`
counted in units of the least positive double, `2 ^ -1074`. Nothing is computed
with doubles here: they are read, compared and printed, so exact arithmetic on
natural numbers is all that is needed.

## Main definitions

* `Double`, with one representation for each number;
* `Double.ofRatio` and `Double.ofDecimal`: the double nearest to an exact number,
  ties to an even significand;
* `Double.equal`: numeric equality, where a NaN differs from itself and the two
  zeros agree.

## Design notes

`Canonical` gives each number one significand and one exponent: either the
exponent is the least one or the significand uses all its 53 bits. Structural
equality is therefore equality of values, apart from the sign of zero.
-/

namespace SqlSelect

/-- The bound of significands, `2 ^ 53`. -/
abbrev Double.significandBound : Nat := 9007199254740992

/-- The least significand of 53 bits, `2 ^ 52`. -/
abbrev Double.leadingBit : Nat := 4503599627370496

/-- The significands and exponents of finite doubles, one pair for each magnitude. -/
abbrev Double.Canonical (significand exponent : Nat) : Prop :=
  significand < Double.significandBound ∧ exponent ≤ 2045 ∧
    (exponent = 0 ∨ Double.leadingBit ≤ significand)

/-- A double-precision binary number. A finite one has the magnitude
    `significand · 2 ^ exponent · 2 ^ -1074`. -/
inductive Double where
  | nan
  | infinite (negative : Bool)
  | finite (negative : Bool) (significand exponent : Nat)
      (canonical : Double.Canonical significand exponent)
deriving DecidableEq

namespace Double

def zero (negative : Bool) : Double := .finite negative 0 0 (by decide)

/-- The number of units in the double 1: one is `2 ^ 1074` times the least
    positive double. -/
def unitsPerOne : Nat := Nat.pow 2 1074

/-- The magnitude of a finite double in units of the least positive one. -/
def units : Double → Nat
  | .finite _ m e _ => m * Nat.pow 2 e
  | _ => 0

/-- The quotient `num / den` rounded to the nearest integer, a half to the even
    neighbour. -/
def roundHalfEven (num den : Nat) : Nat :=
  let q := num / den
  let r := num % den
  if 2 * r < den then q
  else if den < 2 * r then q + 1
  else q + q % 2

/-- A number from its parts. Parts beyond the largest double make an infinity. -/
def ofParts (negative : Bool) (significand exponent : Nat) : Double :=
  if h : Canonical significand exponent then .finite negative significand exponent h
  else .infinite negative

/-- The double nearest to `num / den` units, ties to an even significand. A
    significand that rounds up to 54 bits moves to the next exponent. -/
def ofRatio (negative : Bool) (num den : Nat) : Double :=
  -- The exponent that leaves 53 bits before the point, but not less than 0.
  let e := Nat.log2 (num / den) - 52
  let m := roundHalfEven num (den * Nat.pow 2 e)
  if m = significandBound then ofParts negative leadingBit (e + 1)
  else ofParts negative m e

/-- The double nearest to `digits · 10 ^ exponent`. Magnitudes from `10 ^ 310` up
    are infinite and those below `10 ^ -330` are zero without further
    computation. -/
def ofDecimal (negative : Bool) (digits : Nat) (exponent : Int) : Double :=
  let order := exponent + (Nat.toDigits 10 digits).length
  if digits = 0 ∨ order < -330 then zero negative
  else if 310 < order then .infinite negative
  else match exponent with
    | .ofNat k => ofRatio negative (digits * Nat.pow 10 k * unitsPerOne) 1
    | .negSucc k => ofRatio negative (digits * unitsPerOne) (Nat.pow 10 (k + 1))

/-- The double nearest to an integer. -/
def ofInt (n : Int) : Double := ofDecimal (decide (n < 0)) n.natAbs 0

/-- The number is neither a NaN nor an infinity. -/
def isFinite : Double → Bool
  | .finite .. => true
  | _ => false

/-- The sign of a number; a NaN counts as positive. -/
def isNegative : Double → Bool
  | .nan => false
  | .infinite s => s
  | .finite s .. => s

/-- Numeric equality: a NaN equals nothing and the two zeros are equal. -/
def equal : Double → Double → Bool
  | .infinite s, .infinite t => s == t
  | .finite s m e _, .finite t n f _ => m == n && e == f && (s == t || m == 0)
  | _, _ => false

end Double

end SqlSelect
