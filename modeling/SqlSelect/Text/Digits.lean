/-!
# Decimal digit strings

Digits of natural numbers as lists of characters, and the value of a digit
string. Every number that is printed or read in this library goes through these
definitions.

## Main definitions

* `Digits.ofNat` and `Digits.padded`: the digits of a number, plain and filled
  with zeros to a width;
* `Digits.value`: the number a digit string stands for;
* `Digits.span`: the digits at the head of a text, and what follows them.
-/

namespace SqlSelect.Digits

/-- The decimal digits of `n`, most significant first and without leading zeros;
    zero is the one digit `0`. -/
def ofNat (n : Nat) : List Char := Nat.toDigits 10 n

/-- The digits of `n`, filled with zeros on the left to at least `width`
    characters. -/
def padded (width n : Nat) : List Char :=
  List.replicate (width - (ofNat n).length) '0' ++ ofNat n

/-- The number a digit string stands for; the empty string stands for zero. -/
def value (cs : List Char) : Nat := Nat.ofDigitChars 10 cs 0

/-- The digits at the head of a text, and the text after them. -/
def span (cs : List Char) : List Char × List Char :=
  (cs.takeWhile Char.isDigit, cs.dropWhile Char.isDigit)

/-- The decimal digits of an integer, after a minus sign if it is negative. -/
def ofInt : Int → List Char
  | .ofNat n => ofNat n
  | .negSucc n => '-' :: ofNat (n + 1)

theorem value_ofNat (n : Nat) : value (ofNat n) = n :=
  Nat.ofDigitChars_toDigits (by decide) (by decide)

/-- Numbers are shown as their digits. -/
theorem toList_toString (n : Nat) : (toString n).toList = ofNat n := by
  rw [Nat.toString_eq_repr, Nat.toList_repr]
  rfl

/-- Zeros on the left do not change the number. -/
theorem value_padded (width n : Nat) : value (padded width n) = n := by
  rw [padded, value, Nat.ofDigitChars_append, Nat.ofDigitChars_replicate_zero, Nat.mul_zero]
  exact value_ofNat n

theorem isDigit_of_mem_ofNat {n : Nat} {c : Char} (h : c ∈ ofNat n) : c.isDigit = true :=
  Nat.isDigit_of_mem_toDigits (by decide) (by decide) h

theorem span_append (cs : List Char) : (span cs).1 ++ (span cs).2 = cs :=
  List.takeWhile_append_dropWhile

end SqlSelect.Digits
