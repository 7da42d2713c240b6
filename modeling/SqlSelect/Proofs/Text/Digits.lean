import Mathlib.Algebra.Group.Nat.Defs
import SqlSelect.Proofs.Value.Characters
import SqlSelect.Text.Digits

/-!
# Reading digit strings back

Where a run of digits ends in a text, and what number it stands for when digits,
zeros or other runs stand beside it.

## Main statements

* `Digits.span_append_of_isDigit`: a run of digits ends before the next other
  character;
* `Digits.value_append`: the value of two runs, one after the other;
* `Digits.eq_zero_of_ofNat_eq_cons`: only zero is printed with a zero in front;
* `Digits.length_padded`: a number that fits into its width fills it.
-/

namespace SqlSelect.Digits

/-- A text that does not go on with a digit. -/
def End (rest : List Char) : Prop := ∀ c ∈ rest.head?, c.isDigit = false

theorem End.nil : End [] := by simp [End]

theorem End.cons {c : Char} (hc : c.isDigit = false) (rest : List Char) : End (c :: rest) := by
  simp [End, hc]

/-- A run of digits ends before the next other character. -/
theorem span_append_of_isDigit {ds rest : List Char} (hds : ∀ c ∈ ds, c.isDigit = true)
    (hrest : End rest) : span (ds ++ rest) = (ds, rest) := by
  have hhead : rest.takeWhile Char.isDigit = [] ∧ rest.dropWhile Char.isDigit = rest := by
    cases rest with
    | nil => simp
    | cons c rest =>
      have hc : c.isDigit = false := hrest c rfl
      simp [hc]
  rw [span, List.takeWhile_append_of_pos hds, List.dropWhile_append_of_pos hds, hhead.1,
    hhead.2, List.append_nil]

/-! ### Values -/

theorem value_append (l r : List Char) : value (l ++ r) = value l * 10 ^ r.length + value r := by
  rw [value, Nat.ofDigitChars_append, Nat.ofDigitChars_eq_ofDigitChars_zero, Nat.mul_comm]
  rfl

theorem value_cons (c : Char) (ds : List Char) :
    value (c :: ds) = (c.toNat - '0'.toNat) * 10 ^ ds.length + value ds := by
  rw [← List.singleton_append, value_append]
  simp [value, Nat.ofDigitChars_cons]

/-- Zeros on the right are factors of ten. -/
theorem value_append_zeros (ds : List Char) (k : Nat) :
    value (ds ++ List.replicate k '0') = value ds * 10 ^ k := by
  have hzeros : value (List.replicate k '0') = 0 := by simp [value]
  rw [value_append, List.length_replicate, hzeros, Nat.add_zero]

/-- Zeros on the left do not change the number. -/
theorem value_zeros_append (k : Nat) (ds : List Char) :
    value (List.replicate k '0' ++ ds) = value ds := by
  have hzeros : value (List.replicate k '0') = 0 := by simp [value]
  rw [value_append, hzeros, Nat.zero_mul, Nat.zero_add]

theorem value_lt {ds : List Char} (hds : ∀ c ∈ ds, c.isDigit = true) :
    value ds < 10 ^ ds.length := by
  induction ds with
  | nil => simp [value]
  | cons c ds ih =>
    obtain ⟨hc, hds⟩ := List.forall_mem_cons.1 hds
    have hdigit : c.toNat - '0'.toNat ≤ 9 := by
      have hhigh := (Char.isDigit_iff_toNat.1 hc).2
      have hzero : '0'.toNat = 48 := rfl
      have hnine : '9'.toNat = 57 := rfl
      omega
    have hrest := ih hds
    rw [value_cons, List.length_cons, Nat.pow_succ]
    calc (c.toNat - '0'.toNat) * 10 ^ ds.length + value ds
        ≤ 9 * 10 ^ ds.length + value ds := Nat.add_le_add_right (Nat.mul_le_mul_right _ hdigit) _
      _ < 10 ^ ds.length * 10 := by omega

/-! ### Lengths -/

theorem length_ofNat_le_iff {n k : Nat} (hk : 0 < k) : (ofNat n).length ≤ k ↔ n < 10 ^ k :=
  Nat.length_toDigits_le_iff (by decide) hk

/-- A factor of ten is one more digit. -/
theorem length_ofNat_mul_ten {n : Nat} (hn : 0 < n) :
    (ofNat (10 * n)).length = (ofNat n).length + 1 := by
  have hdigits := Nat.toDigits_append_toDigits (b := 10) (d := 0) (by decide) hn (by decide)
  rw [Nat.toDigits_zero, Nat.add_zero] at hdigits
  rw [ofNat, ofNat, ← hdigits, List.length_append, List.length_singleton]

/-- Only zero is printed with a zero in front. -/
theorem eq_zero_of_ofNat_eq_cons {n : Nat} {rest : List Char} (h : ofNat n = '0' :: rest) :
    n = 0 := by
  have hvalue : value rest = n := by
    rw [← value_ofNat n, h, value_cons, Nat.sub_self, Nat.zero_mul, Nat.zero_add]
  cases rest with
  | nil => simpa [value] using hvalue.symm
  | cons c rest =>
    -- A number below a power of ten has no more digits than that power has zeros.
    have hlt : n < 10 ^ (c :: rest).length := by
      rw [← hvalue]
      refine value_lt fun d hd => isDigit_of_mem_ofNat (n := n) ?_
      rw [h]
      exact List.mem_cons_of_mem _ hd
    have hlen := (length_ofNat_le_iff (by simp)).2 hlt
    rw [h] at hlen
    exact absurd hlen (by simp)

/-- A number that fits into its width fills it. -/
theorem length_padded {width n : Nat} (hwidth : 0 < width) (h : n < 10 ^ width) :
    (padded width n).length = width := by
  have hlen := (length_ofNat_le_iff hwidth).2 h
  rw [padded, List.length_append, List.length_replicate]
  omega

end SqlSelect.Digits
