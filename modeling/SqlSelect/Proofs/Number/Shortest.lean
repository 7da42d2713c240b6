import Mathlib.Tactic.Ring
import SqlSelect.Number.Shortest
import SqlSelect.Proofs.Text.Digits

/-!
# Shortest digits read back

Rounding sees only the quotient of its two numbers, so factors of ten can move
between the digits of a decimal and its exponent. A double is the double nearest to
its exact value, and every grid point that stands for it was tried before it was
taken: whatever digits are printed for a finite double, they read back as it.

## Main statements

* `Double.ofDecimal_mul_pow`: factors of ten between digits and exponent;
* `Double.ofDecimal_exactExpansion`: the exact expansion of a double reads back;
* `Double.ofDecimal_shortest`: so do its shortest digits.
-/

namespace SqlSelect

namespace Double

/-! ### Factors of ten -/

theorem roundHalfEven_mul_left {k : Nat} (hk : 0 < k) (num den : Nat) :
    roundHalfEven (k * num) (k * den) = roundHalfEven num den := by
  have hleft : ∀ a b : Nat, 2 * (k * a) < k * b ↔ 2 * a < b := by
    intro a b
    rw [Nat.mul_left_comm, Nat.mul_lt_mul_left hk]
  have hright : ∀ a b : Nat, k * b < 2 * (k * a) ↔ b < 2 * a := by
    intro a b
    rw [Nat.mul_left_comm, Nat.mul_lt_mul_left hk]
  simp only [roundHalfEven, Nat.mul_div_mul_left _ _ hk, Nat.mul_mod_mul_left, hleft, hright]

theorem ofRatio_mul_left {k : Nat} (hk : 0 < k) (negative : Bool) (num den : Nat) :
    ofRatio negative (k * num) (k * den) = ofRatio negative num den := by
  simp only [ofRatio, Nat.mul_div_mul_left _ _ hk, Nat.mul_assoc, roundHalfEven_mul_left hk]

theorem ofDecimal_zero (negative : Bool) (exponent : Int) :
    ofDecimal negative 0 exponent = zero negative := by
  simp [ofDecimal]

/-- A factor of ten may stand in the digits or in the exponent. -/
theorem ofDecimal_mul_ten (negative : Bool) (digits : Nat) (exponent : Int) :
    ofDecimal negative (10 * digits) exponent = ofDecimal negative digits (exponent + 1) := by
  cases Nat.eq_zero_or_pos digits with
  | inl h =>
    subst h
    rw [Nat.mul_zero, ofDecimal_zero, ofDecimal_zero]
  | inr h =>
    have hlen : ((Nat.toDigits 10 (10 * digits)).length : Int) =
        (Nat.toDigits 10 digits).length + 1 := by
      exact_mod_cast Digits.length_ofNat_mul_ten h
    have horder : exponent + ((Nat.toDigits 10 (10 * digits)).length : Int) =
        exponent + 1 + (Nat.toDigits 10 digits).length := by omega
    have hzero : 10 * digits = 0 ↔ digits = 0 := by omega
    simp only [ofDecimal, horder, hzero]
    -- The two sides agree on the magnitude; what is left is the quotient.
    congr 2
    generalize unitsPerOne = one
    cases exponent with
    | ofNat k =>
      have hnum : 10 * digits * 10 ^ k * one = digits * 10 ^ (k + 1) * one := by ring
      exact congrArg (ofRatio negative · 1) hnum
    | negSucc k =>
      have hnum : 10 * digits * one = 10 * (digits * one) := by ring
      cases k with
      | zero =>
        have hden : digits * 10 ^ 0 * one = digits * one := by ring
        exact (congrArg (ofRatio negative · 10) hnum).trans
          ((ofRatio_mul_left (by decide) negative _ 1).trans
            (congrArg (ofRatio negative · 1) hden.symm))
      | succ k =>
        have hden : (10 : Nat) ^ (k + 2) = 10 * 10 ^ (k + 1) := by ring
        exact (congrArg₂ (ofRatio negative) hnum hden).trans (ofRatio_mul_left (by decide) ..)

theorem ofDecimal_mul_pow (negative : Bool) (digits k : Nat) (exponent : Int) :
    ofDecimal negative (digits * 10 ^ k) exponent =
      ofDecimal negative digits (exponent + k) := by
  induction k generalizing exponent with
  | zero => simp
  | succ k ih =>
    have hpow : digits * 10 ^ (k + 1) = 10 * (digits * 10 ^ k) := by ring
    rw [hpow, ofDecimal_mul_ten, ih]
    congr 1
    push_cast
    ring

/-- Zeros at the end of digits are factors of ten. -/
theorem ofDecimal_trim (negative : Bool) (fuel : Nat) (s : Scientific) :
    ofDecimal negative (s.trim fuel).digits (s.trim fuel).exponent =
      ofDecimal negative s.digits s.exponent := by
  induction fuel generalizing s with
  | zero => rfl
  | succ fuel ih =>
    rw [Scientific.trim]
    split
    case isTrue h =>
      have hdigits : 10 * (s.digits / 10) = s.digits := by omega
      rw [ih, ← ofDecimal_mul_ten, hdigits]
    case isFalse => rfl

/-! ### The exact value -/

/-- The significand has all its 53 bits, or the exponent is the least one. -/
theorem log2_units_sub {m e : Nat} (h : Canonical m e) (hm : m ≠ 0) :
    Nat.log2 (m * 2 ^ e) - 52 = e := by
  obtain ⟨hlt, -, hleading⟩ := h
  have hne : m * 2 ^ e ≠ 0 := Nat.mul_ne_zero hm (by simp)
  have hupper : Nat.log2 (m * 2 ^ e) < 53 + e := by
    rw [Nat.log2_lt hne, Nat.pow_add]
    exact Nat.mul_lt_mul_of_pos_right hlt (Nat.two_pow_pos e)
  cases hleading with
  | inl he => omega
  | inr hleading =>
    have hlower : 52 + e ≤ Nat.log2 (m * 2 ^ e) := by
      rw [Nat.le_log2 hne, Nat.pow_add]
      exact Nat.mul_le_mul_right _ hleading
    omega

theorem roundHalfEven_one (n : Nat) : roundHalfEven n 1 = n := by
  simp [roundHalfEven, Nat.mod_one]

/-- The double nearest to the exact value of a double is the double itself. -/
theorem ofRatio_units (negative : Bool) {m e : Nat} (h : Canonical m e) (hm : m ≠ 0) :
    ofRatio negative (m * 2 ^ e) 1 = .finite negative m e h := by
  have hround : roundHalfEven (m * 2 ^ e) (1 * 2 ^ e) = m := by
    rw [Nat.mul_comm m, Nat.mul_comm 1, roundHalfEven_mul_left (Nat.two_pow_pos e),
      roundHalfEven_one]
  have hbound : m ≠ significandBound := Nat.ne_of_lt h.1
  simp only [ofRatio, Nat.div_one, log2_units_sub h hm, Nat.pow_eq, hround, if_neg hbound,
    ofParts, dif_pos h]

/-- The number of digits of the magnitude of a positive double, multiplied by a large
    number: the double itself counts for at least one and for less than its bound. -/
theorem length_expansion {m e k top least greatest : Nat} (hm : m ≠ 0)
    (hmtop : m ≤ 2 ^ 53) (hetop : e ≤ top) (hleast : 0 < least) (hgreatest : 0 < greatest)
    (hsmall : 10 ^ least ≤ k) (hlarge : 2 ^ 53 * 2 ^ top * k < 10 ^ greatest) :
    least < (Digits.ofNat (m * 2 ^ e * k)).length ∧
      (Digits.ofNat (m * 2 ^ e * k)).length ≤ greatest := by
  constructor
  · rw [← Nat.not_le, Digits.length_ofNat_le_iff hleast, Nat.not_lt]
    have hpos : 0 < m * 2 ^ e := Nat.mul_pos (Nat.pos_of_ne_zero hm) (Nat.two_pow_pos e)
    exact hsmall.trans (Nat.le_mul_of_pos_left k hpos)
  · rw [Digits.length_ofNat_le_iff hgreatest]
    have he : 2 ^ e ≤ 2 ^ top := Nat.pow_le_pow_right (by decide) hetop
    exact Nat.lt_of_le_of_lt (Nat.mul_le_mul_right k (Nat.mul_le_mul hmtop he)) hlarge

/-- Digits in the range of doubles, with digits behind the point. -/
theorem ofDecimal_negSucc (negative : Bool) {digits k : Nat} (hdigits : digits ≠ 0)
    (hleast : k + 1 ≤ (Digits.ofNat digits).length + 330)
    (hgreatest : (Digits.ofNat digits).length ≤ k + 1 + 310) :
    ofDecimal negative digits (.negSucc k) =
      ofRatio negative (digits * unitsPerOne) (Nat.pow 10 (k + 1)) := by
  rw [Digits.ofNat] at hleast hgreatest
  rw [ofDecimal, if_neg (by omega), if_neg (by omega)]

/-- The digits of a double over a power of ten that is a multiple of the unit read back
    as the double. The powers are parameters, so that nothing here evaluates them. -/
theorem ofDecimal_expansion (negative : Bool) {m e k top five : Nat} (least greatest : Nat)
    (h : Canonical m e) (hm : m ≠ 0) (hetop : e ≤ top)
    (hten : Nat.pow 10 (k + 1) = five * unitsPerOne) (hsmall : 10 ^ least ≤ five)
    (hlarge : 2 ^ 53 * 2 ^ top * five < 10 ^ greatest) (hleast : 0 < least)
    (hk : k + 1 ≤ least + 330) (hgreatest : 0 < greatest)
    (hk' : greatest ≤ k + 1 + 310) :
    ofDecimal negative (m * 2 ^ e * five) (.negSucc k) = .finite negative m e h := by
  obtain ⟨hlower, hupper⟩ := length_expansion hm (Nat.le_of_lt h.1) hetop hleast hgreatest
    hsmall hlarge
  have hfive : 0 < five := Nat.lt_of_lt_of_le (Nat.pow_pos (by decide)) hsmall
  have hdigits : m * 2 ^ e * five ≠ 0 :=
    Nat.mul_ne_zero (Nat.mul_ne_zero hm (Nat.two_pow_pos e).ne') hfive.ne'
  have hnum : m * 2 ^ e * five * unitsPerOne = Nat.pow 10 (k + 1) * (m * 2 ^ e) := by
    rw [hten]
    ring
  calc ofDecimal negative (m * 2 ^ e * five) (.negSucc k)
      = ofRatio negative (Nat.pow 10 (k + 1) * (m * 2 ^ e)) (Nat.pow 10 (k + 1) * 1) := by
        rw [ofDecimal_negSucc negative hdigits (by omega) (by omega), hnum, Nat.mul_one]
    _ = ofRatio negative (m * 2 ^ e) 1 := ofRatio_mul_left (Nat.pow_pos (by decide)) ..
    _ = .finite negative m e h := ofRatio_units negative h hm

theorem exactExpansion_finite (negative : Bool) {m e : Nat} (h : Canonical m e) :
    (finite negative m e h).exactExpansion = ⟨m * 2 ^ e * Nat.pow 5 1074, .negSucc 1073⟩ :=
  rfl

/-- The exact expansion of a double reads back as the double. -/
theorem ofDecimal_exactExpansion (negative : Bool) {m e : Nat} (h : Canonical m e)
    (hm : m ≠ 0) :
    ofDecimal negative (finite negative m e h).exactExpansion.digits
      (finite negative m e h).exactExpansion.exponent = .finite negative m e h := by
  rw [exactExpansion_finite]
  exact ofDecimal_expansion negative 744 1384 h hm h.2.1
    (by decide +kernel) (by decide +kernel) (by decide +kernel) (by decide) (by decide)
    (by decide) (by decide)

/-! ### The shortest digits -/

/-- A grid point is only taken if it reads back. -/
theorem ofDecimal_gridPoint {tie : TieRule} {d : Double} {exponent : Int} {n : Nat}
    (h : gridPoint tie d exponent = some n) : ofDecimal d.isNegative n exponent = d := by
  simp only [gridPoint] at h
  split at h
  case isTrue hboth =>
    obtain ⟨hlow, hhigh⟩ := hboth
    split at h
    · rwa [← Option.some.inj h]
    · split at h
      · rwa [← Option.some.inj h]
      · -- On a tie one of the two neighbours is taken, and both read back.
        cases tie with
        | up => rwa [← Option.some.inj h]
        | even =>
          have hn := Option.some.inj h
          obtain heven | hodd := Nat.mod_two_eq_zero_or_one
            ((gridRatio d.units exponent).1 / (gridRatio d.units exponent).2)
          · rw [heven] at hn
            rwa [← hn]
          · rw [hodd] at hn
            rwa [← hn]
  case isFalse =>
    split at h
    case isTrue hlow => rwa [← Option.some.inj h]
    case isFalse =>
      split at h
      case isTrue hhigh => rwa [← Option.some.inj h]
      case isFalse => simp at h

/-- What holds of every grid point and of the number itself holds of the point that is
    found. -/
theorem coarsestPoint_induction {p : Scientific → Prop} {grid : Int → Option Nat}
    {order : Int} {exact : Scientific} (hexact : p exact)
    (hgrid : ∀ exponent n, grid exponent = some n → p ⟨n, exponent⟩) (fuel : Nat) :
    p (coarsestPoint grid order exact fuel) := by
  induction fuel with
  | zero => exact hexact
  | succ fuel ih =>
    rw [coarsestPoint]
    split
    case h_1 n hn => exact hgrid _ n hn
    case h_2 => exact ih

/-- The shortest digits of a finite double read back as the double. -/
theorem ofDecimal_shortest (tie : TieRule) {d : Double} (h : d.isFinite = true) :
    ofDecimal d.isNegative (d.shortest tie).digits (d.shortest tie).exponent = d := by
  cases d with
  | nan => simp [isFinite] at h
  | infinite negative => simp [isFinite] at h
  | finite negative m e hc =>
    rw [shortest]
    split
    case isTrue hzero =>
      -- A canonical zero has the exponent zero too.
      have hm : m = 0 := by
        simpa [units] using hzero
      subst hm
      have he : e = 0 := by simpa using hc.2.2
      subst he
      rfl
    case isFalse hne =>
      have hm : m ≠ 0 := by
        rintro rfl
        exact hne (Nat.zero_mul _)
      rw [ofDecimal_trim]
      exact coarsestPoint_induction
        (p := fun s => ofDecimal negative s.digits s.exponent = .finite negative m e hc)
        (ofDecimal_exactExpansion negative hc hm)
        (fun _ _ hn => ofDecimal_gridPoint (d := .finite negative m e hc) hn) 17

/-- The only shortest digits that are zero are those of a zero. -/
theorem shortest_exponent_of_digits_eq_zero (tie : TieRule) {d : Double}
    (h : d.isFinite = true) (hzero : (d.shortest tie).digits = 0) :
    (d.shortest tie).exponent = 0 := by
  have hread := ofDecimal_shortest tie h
  rw [hzero, ofDecimal_zero] at hread
  rw [shortest, if_pos (by rw [← hread]; rfl)]

end Double

end SqlSelect
