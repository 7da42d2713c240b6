import Mathlib.Data.String.Basic
import Mathlib.Tactic.Tauto
import SqlSelect.Proofs.Text.Digits

/-!
# Digit strings in order

Digit strings of one length are in lexicographic order as their values are in numeric
order. So numbers that are printed in one width are compared as numbers, wherever they
stand in a text.

## Main statements

* `Digits.lt_iff_value_lt`: the order of digit strings of one length;
* `Digits.padded_append_le_iff`: the order of texts that begin with such a number.
-/

namespace SqlSelect.Digits

/-! ### Texts -/

theorem cons_le_cons_iff {c d : Char} {r₁ r₂ : List Char} :
    c :: r₁ ≤ d :: r₂ ↔ c < d ∨ c = d ∧ r₁ ≤ r₂ := by
  rw [le_iff_lt_or_eq, le_iff_lt_or_eq, List.cons_lt_cons_iff, List.cons.injEq]
  tauto

/-- What two texts begin with in common does not count. -/
theorem cons_le_cons_self (c : Char) (r₁ r₂ : List Char) : c :: r₁ ≤ c :: r₂ ↔ r₁ ≤ r₂ := by
  rw [cons_le_cons_iff, eq_self, true_and, or_iff_right (lt_irrefl c)]

/-- Two texts whose heads are equally long are compared by the heads first. -/
theorem append_le_append_iff {l₁ l₂ : List Char} (h : l₁.length = l₂.length)
    (r₁ r₂ : List Char) : l₁ ++ r₁ ≤ l₂ ++ r₂ ↔ l₁ < l₂ ∨ l₁ = l₂ ∧ r₁ ≤ r₂ := by
  induction l₁ generalizing l₂ with
  | nil =>
    obtain rfl := List.length_eq_zero_iff.1 h.symm
    simp
  | cons c l₁ ih =>
    obtain ⟨d, l₂, rfl⟩ := List.exists_cons_of_length_eq_add_one h.symm
    rw [List.cons_append, List.cons_append, cons_le_cons_iff, List.cons_lt_cons_iff,
      ih (Nat.succ.inj h), List.cons.injEq, and_or_left, ← or_assoc, and_assoc]

/-! ### Values -/

/-- Of two numbers with a last place of `w` values, the places before it decide first. -/
theorem mul_add_lt_mul_add_iff {m n u v w : Nat} (hu : u < w) (hv : v < w) :
    m * w + u < n * w + v ↔ m < n ∨ m = n ∧ u < v := by
  obtain hlt | rfl | hgt := Nat.lt_trichotomy m n
  · have hstep := Nat.mul_le_mul_right w (Nat.succ_le_of_lt hlt)
    rw [Nat.succ_mul] at hstep
    simp only [hlt, true_or, iff_true]
    omega
  · simp
  · have hstep := Nat.mul_le_mul_right w (Nat.succ_le_of_lt hgt)
    rw [Nat.succ_mul] at hstep
    simp only [Nat.not_lt_of_gt hgt, Nat.ne_of_gt hgt, false_and, or_self, iff_false]
    omega

/-- Digit strings of one length are ordered like the numbers that they stand for. -/
theorem lt_iff_value_lt {ds es : List Char} (hds : ∀ c ∈ ds, c.isDigit = true)
    (hes : ∀ c ∈ es, c.isDigit = true) (h : ds.length = es.length) :
    ds < es ↔ value ds < value es := by
  induction ds generalizing es with
  | nil =>
    obtain rfl := List.length_eq_zero_iff.1 h.symm
    simp
  | cons c ds ih =>
    obtain ⟨d, es, rfl⟩ := List.exists_cons_of_length_eq_add_one h.symm
    obtain ⟨hc, hds⟩ := List.forall_mem_cons.1 hds
    obtain ⟨hd, hes⟩ := List.forall_mem_cons.1 hes
    have hlen : ds.length = es.length := Nat.succ.inj h
    have hc := (Char.isDigit_iff_toNat.1 hc).1
    have hd := (Char.isDigit_iff_toNat.1 hd).1
    have hlt : c < d ↔ c.toNat - '0'.toNat < d.toNat - '0'.toNat := by
      rw [show c < d ↔ c.toNat < d.toNat from Iff.rfl]
      omega
    have heq : c = d ↔ c.toNat - '0'.toNat = d.toNat - '0'.toNat := by
      rw [← Char.toNat_inj]
      omega
    rw [List.cons_lt_cons_iff, ih hds hes hlen, hlt, heq, value_cons, value_cons, ← hlen,
      mul_add_lt_mul_add_iff (value_lt hds) (hlen ▸ value_lt hes)]

/-- Numbers of one width are compared as numbers, and where they are equal, what follows
    them is compared. -/
theorem padded_append_le_iff {width m n : Nat} (hwidth : 0 < width) (hm : m < 10 ^ width)
    (hn : n < 10 ^ width) (r₁ r₂ : List Char) :
    padded width m ++ r₁ ≤ padded width n ++ r₂ ↔ m < n ∨ m = n ∧ r₁ ≤ r₂ := by
  have hlen : (padded width m).length = (padded width n).length := by
    rw [length_padded hwidth hm, length_padded hwidth hn]
  have hlt : padded width m < padded width n ↔ m < n := by
    rw [lt_iff_value_lt (fun c => isDigit_of_mem_padded) (fun c => isDigit_of_mem_padded) hlen,
      value_padded, value_padded]
  have heq : padded width m = padded width n ↔ m = n := by
    refine ⟨fun h => ?_, congrArg _⟩
    rw [← value_padded width m, h, value_padded]
  rw [append_le_append_iff hlen, hlt, heq]

end SqlSelect.Digits
