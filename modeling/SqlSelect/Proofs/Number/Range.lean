import SqlSelect.Proofs.Number.Shortest

/-!
# The range of doubles

Rounding to a double makes an infinity only of a number beyond the largest double. Every
integer of 64 bits, with or without a sign, is far below that.

## Main statements

* `Double.isFinite_ofRatio`: a quotient in the range of doubles is rounded to a number;
* `Double.isFinite_ofInt`: so is every integer of 64 bits.
-/

namespace SqlSelect.Double

theorem le_roundHalfEven (num den : Nat) : num / den ≤ roundHalfEven num den := by
  simp only [roundHalfEven]
  split <;> [skip; split] <;> omega

theorem roundHalfEven_le (num den : Nat) : roundHalfEven num den ≤ num / den + 1 := by
  simp only [roundHalfEven]
  split <;> [skip; split] <;> omega

theorem isFinite_ofParts (negative : Bool) {m e : Nat} (h : Canonical m e) :
    (ofParts negative m e).isFinite = true := by
  rw [ofParts, dif_pos h]
  rfl

/-- A number of less than `2 ^ 2097` units has the exponent of a double, also where
    rounding carries to the next exponent. -/
theorem isFinite_ofRatio (negative : Bool) {num den k : Nat} (h : num / den < 2 ^ k)
    (hk : k ≤ 2097) :
    (ofRatio negative num den).isFinite = true := by
  simp only [ofRatio, Nat.pow_eq]
  generalize hq : num / den = q at h
  have hexponent : Nat.log2 q - 52 ≤ 2044 := by
    by_cases hzero : q = 0
    · simp [hzero]
    · have := (Nat.log2_lt hzero).2 h
      omega
  have hscaled : num / (den * 2 ^ (Nat.log2 q - 52)) = q / 2 ^ (Nat.log2 q - 52) := by
    rw [← Nat.div_div_eq_div_mul, hq]
  have hlow := le_roundHalfEven num (den * 2 ^ (Nat.log2 q - 52))
  have hhigh := roundHalfEven_le num (den * 2 ^ (Nat.log2 q - 52))
  rw [hscaled] at hlow hhigh
  -- The quotient without its low bits has at most 53 bits.
  have htop : q / 2 ^ (Nat.log2 q - 52) < 2 ^ 53 := by
    rw [Nat.div_lt_iff_lt_mul (Nat.two_pow_pos _), ← Nat.pow_add]
    by_cases hzero : q = 0
    · rw [hzero]
      exact Nat.two_pow_pos _
    · exact (Nat.log2_lt hzero).1 (by omega)
  -- It has all of them unless the exponent is the least one.
  have hleading : Nat.log2 q - 52 = 0 ∨ 2 ^ 52 ≤ q / 2 ^ (Nat.log2 q - 52) := by
    by_cases hbits : Nat.log2 q ≤ 52
    · exact .inl (Nat.sub_eq_zero_of_le hbits)
    · right
      have hne : q ≠ 0 := by
        rintro rfl
        exact hbits (by simp)
      rw [Nat.le_div_iff_mul_le (Nat.two_pow_pos _), ← Nat.pow_add]
      exact (Nat.le_log2 hne).1 (by omega)
  generalize roundHalfEven num (den * 2 ^ (Nat.log2 q - 52)) = m at hlow hhigh
  generalize q / 2 ^ (Nat.log2 q - 52) = bits at hlow hhigh htop hleading
  generalize Nat.log2 q - 52 = e at hexponent hleading
  have h53 : (2 : Nat) ^ 53 = significandBound := rfl
  have h52 : (2 : Nat) ^ 52 = leadingBit := rfl
  split
  case isTrue =>
    exact isFinite_ofParts negative ⟨by decide, by omega, .inr (Nat.le_refl _)⟩
  case isFalse hne =>
    exact isFinite_ofParts negative ⟨by omega, by omega, by omega⟩

/-- An integer of at most 20 digits is rounded to a number. -/
theorem isFinite_ofInt {n : Int} (h : n.natAbs < 10 ^ 20) : (ofInt n).isFinite = true := by
  have hdigits : (Nat.toDigits 10 n.natAbs).length ≤ 20 :=
    (Digits.length_ofNat_le_iff (by decide)).2 h
  -- The power is a parameter, so that nothing here evaluates it.
  have hunits : ∀ {one k : Nat}, one < 2 ^ k →
      n.natAbs * Nat.pow 10 0 * one / 1 < 2 ^ (67 + k) := by
    intro one k hone
    have hbound : n.natAbs < 2 ^ 67 := Nat.lt_trans h (by decide)
    rw [Nat.div_one, Nat.pow_eq, Nat.pow_zero, Nat.mul_one, Nat.pow_add]
    exact Nat.mul_lt_mul'' hbound hone
  have hone : unitsPerOne < 2 ^ 1075 := by decide +kernel
  have hzero : (0 : Int) = .ofNat 0 := rfl
  rw [ofInt, hzero, ofDecimal]
  split
  case isTrue => rfl
  case isFalse =>
    rw [if_neg (by omega)]
    exact isFinite_ofRatio _ (hunits hone) (by decide)

end SqlSelect.Double
