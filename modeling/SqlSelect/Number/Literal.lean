import SqlSelect.Number.Double
import SqlSelect.Text.Digits

/-!
# Numeric literals

A numeric literal split into its digits: the common form of the number notations
this library reads.
-/

namespace SqlSelect

/-- A literal `± whole . fraction e exponent`, with its digits as written. -/
structure NumberLiteral where
  negative : Bool
  whole : List Char
  fraction : List Char
  exponent : Int

namespace NumberLiteral

/-- The digits before and behind the point as one number. -/
def digits (l : NumberLiteral) : Nat := Digits.value (l.whole ++ l.fraction)

/-- The double nearest to the literal. -/
def toDouble (l : NumberLiteral) : Double :=
  Double.ofDecimal l.negative l.digits (l.exponent - l.fraction.length)

/-- The sign at the head of a text, and the text after it. -/
def spanSign : List Char → Bool × List Char
  | '-' :: rest => (true, rest)
  | '+' :: rest => (false, rest)
  | cs => (false, cs)

/-- The digits after a point at the head of a text, if it starts with one, and the
    text after them. -/
def spanFraction : List Char → List Char × List Char
  | '.' :: rest => Digits.span rest
  | cs => ([], cs)

/-- Reads an optional exponent that must fill the text. -/
def exponent? : List Char → Option Int
  | [] => some 0
  | c :: rest =>
    let (negative, digits) := spanSign rest
    if (c = 'e' ∨ c = 'E') ∧ digits ≠ [] ∧ digits.all Char.isDigit then
      let n : Int := Digits.value digits
      some (if negative then -n else n)
    else none

/-- Reads a literal that fills a text: a sign, digits with or without a point, and
    an exponent. -/
def ofText? (cs : List Char) : Option NumberLiteral := do
  let (negative, unsigned) := spanSign cs
  let (whole, rest) := Digits.span unsigned
  let (fraction, rest) := spanFraction rest
  let exponent ← exponent? rest
  if whole = [] ∧ fraction = [] then none
  else some ⟨negative, whole, fraction, exponent⟩

end NumberLiteral

/-- Reads a double from a literal or from the words `inf` and `NaN`. -/
def Double.ofText? (cs : List Char) : Option Double :=
  let (negative, unsigned) := NumberLiteral.spanSign cs
  if unsigned = ['i', 'n', 'f'] then some (.infinite negative)
  else if unsigned = ['N', 'a', 'N'] then some .nan
  else (NumberLiteral.ofText? cs).map NumberLiteral.toDouble

end SqlSelect
