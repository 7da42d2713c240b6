import Mathlib.Tactic.Ring
import SqlSelect.Number.Decimal
import SqlSelect.Proofs.Text.Digits

/-!
# Reading printed decimals

The text of a decimal has its digits and its places, so it is read back with its
scale. All a decimal can lose in its text is the minus sign of a zero.

## Main definitions

* `Decimal.asRead`: what is left of a decimal in its text.

## Main statements

* `Decimal.ofText?_text`: a printed decimal is read as `Decimal.asRead`;
* `Decimal.text_asRead_eq_iff`: only the minus sign of a zero is lost.
-/

namespace SqlSelect.Decimal

/-- A decimal as it is read back from its text: a zero has no minus sign. -/
def asRead (d : Decimal) : Decimal where
  negative := d.negative && d.coefficient != 0
  coefficient := d.coefficient
  scale := d.scale
  coefficient_lt := d.coefficient_lt
  scale_le := d.scale_le

theorem asRead_of_zero_unsigned {d : Decimal} (h : d.coefficient = 0 → d.negative = false) :
    d.asRead = d := by
  have hnegative : (d.negative && d.coefficient != 0) = d.negative := by
    by_cases hzero : d.coefficient = 0
    · simp [h hzero]
    · simp [hzero]
  cases d
  simp_all [asRead]

@[simp] theorem asRead_asRead (d : Decimal) : d.asRead.asRead = d.asRead := by
  simp [asRead]

theorem ofParts?_eq_asRead (d : Decimal) :
    ofParts? d.negative d.coefficient d.scale = some d.asRead := by
  rw [ofParts?, ofSignedParts?, dif_pos ⟨d.coefficient_lt, d.scale_le⟩]
  rfl

/-! ### Digits with room -/

section

variable {negative point begun : Bool} {coefficient scale : Nat}

/-- A digit for which there is room is appended to the coefficient. -/
theorem readFrom_digit {c : Char} (hc : c.isDigit = true) (hscale : point = true → scale < 28)
    (hroom : coefficient * 10 + Digits.value [c] < coefficientBound) (rest : List Char) :
    readFrom negative point begun coefficient scale (c :: rest) =
      readFrom negative point true (coefficient * 10 + Digits.value [c])
        (if point then scale + 1 else 0) rest := by
  have hvalue : Digits.value [c] = c.toNat - '0'.toNat := by
    simp [Digits.value, Nat.ofDigitChars_cons]
  have hfull : ¬(point && scale == 28) = true := by
    intro h
    simp only [Bool.and_eq_true, beq_iff_eq] at h
    have := hscale h.1
    omega
  rw [hvalue] at hroom ⊢
  rw [readFrom, if_neg hfull, if_pos hc]
  simp only [if_pos hroom]

/-- Digits for which there is room are appended to the coefficient, one by one. -/
theorem readFrom_digits {ds : List Char} (hds : ∀ c ∈ ds, c.isDigit = true) (hne : ds ≠ [])
    (hscale : point = true → scale + ds.length ≤ 28)
    (hroom : coefficient * 10 ^ ds.length + Digits.value ds < coefficientBound)
    (rest : List Char) :
    readFrom negative point begun coefficient scale (ds ++ rest) =
      readFrom negative point true (coefficient * 10 ^ ds.length + Digits.value ds)
        (if point then scale + ds.length else 0) rest := by
  induction ds generalizing begun coefficient scale with
  | nil => exact absurd rfl hne
  | cons c ds ih =>
    have hvalue : Digits.value (c :: ds) = Digits.value [c] * 10 ^ ds.length + Digits.value ds :=
      Digits.value_append [c] ds
    have hgrown : coefficient * 10 ^ (c :: ds).length + Digits.value (c :: ds) =
        (coefficient * 10 + Digits.value [c]) * 10 ^ ds.length + Digits.value ds := by
      rw [hvalue, List.length_cons, Nat.pow_succ]
      ring
    have hfirst : coefficient * 10 + Digits.value [c] < coefficientBound := by
      have hle := Nat.le_mul_of_pos_right (coefficient * 10 + Digits.value [c])
        (Nat.pow_pos (n := ds.length) (show 0 < 10 by decide))
      omega
    simp only [List.length_cons] at hscale
    rw [List.cons_append, readFrom_digit (hds c List.mem_cons_self) (by grind) hfirst, hgrown]
    cases hds' : ds with
    | nil => simp [Digits.value]
    | cons d more =>
      rw [← hds']
      rw [ih (fun d hd => hds d (List.mem_cons_of_mem c hd)) (by simp [hds']) (by grind)
        (by rw [← hgrown]; exact hroom)]
      cases point with
      | false => rfl
      | true =>
        simp only [if_true, List.length_cons]
        congr 1
        omega

end

/-! ### Printed decimals -/

/-- The digits before the point. -/
def whole (d : Decimal) : List Char :=
  (Digits.padded (d.scale + 1) d.coefficient).take
    ((Digits.padded (d.scale + 1) d.coefficient).length - d.scale)

/-- The digits behind the point. -/
def places (d : Decimal) : List Char :=
  (Digits.padded (d.scale + 1) d.coefficient).drop
    ((Digits.padded (d.scale + 1) d.coefficient).length - d.scale)

section

variable (d : Decimal)

theorem text_eq :
    d.text = (if d.negative then ['-'] else []) ++ d.whole ++
      (if d.places = [] then [] else '.' :: d.places) := rfl

theorem text_asRead_eq_iff : d.asRead.text = d.text ↔ (d.coefficient = 0 → d.negative = false) := by
  constructor
  · intro h hzero
    have hsame : d.asRead.whole = d.whole ∧ d.asRead.places = d.places := ⟨rfl, rfl⟩
    rw [text_eq, text_eq, hsame.1, hsame.2, List.append_assoc, List.append_assoc,
      List.append_cancel_right_eq] at h
    cases hnegative : d.negative with
    | false => rfl
    | true => simp [asRead, hzero, hnegative] at h
  · intro h
    rw [asRead_of_zero_unsigned h]

theorem isDigit_of_mem_whole {c : Char} (h : c ∈ d.whole) : c.isDigit = true :=
  Digits.isDigit_of_mem_padded (List.mem_of_mem_take h)

theorem isDigit_of_mem_places {c : Char} (h : c ∈ d.places) : c.isDigit = true :=
  Digits.isDigit_of_mem_padded (List.mem_of_mem_drop h)

theorem length_places : d.places.length = d.scale := by
  have hlen := Digits.le_length_padded (d.scale + 1) d.coefficient
  rw [places, List.length_drop]
  omega

theorem whole_ne_nil : d.whole ≠ [] := by
  have hlen := Digits.le_length_padded (d.scale + 1) d.coefficient
  intro h
  have hzero := congrArg List.length h
  rw [whole, List.length_take, List.length_nil] at hzero
  omega

/-- The digits on both sides of the point make the coefficient. -/
theorem value_whole_places :
    Digits.value d.whole * 10 ^ d.places.length + Digits.value d.places = d.coefficient := by
  rw [← Digits.value_append, whole, places, List.take_append_drop, Digits.value_padded]

/-- Behind its sign a printed decimal is read as the decimal. -/
theorem readFrom_text (negative : Bool) :
    readFrom negative false false 0 0 (d.whole ++ if d.places = [] then [] else '.' :: d.places) =
      ofParts? negative d.coefficient d.scale := by
  have hvalue := d.value_whole_places
  have hlt := d.coefficient_lt
  have hwhole : Digits.value d.whole < coefficientBound := by
    have hle := Nat.le_mul_of_pos_right (Digits.value d.whole)
      (Nat.pow_pos (n := d.places.length) (show 0 < 10 by decide))
    omega
  rw [readFrom_digits (fun c => d.isDigit_of_mem_whole) d.whole_ne_nil (by simp)
    (by simpa using hwhole)]
  simp only [Nat.zero_mul, Nat.zero_add, Bool.false_eq_true, if_false]
  by_cases hplaces : d.places = []
  · -- Without places the whole digits are the coefficient.
    have hscale : d.scale = 0 := by
      rw [← d.length_places, hplaces]
      rfl
    rw [hplaces] at hvalue
    have hvalue : Digits.value d.whole = d.coefficient := by simpa [Digits.value] using hvalue
    rw [if_pos hplaces, readFrom, if_pos rfl, hvalue, hscale]
  · have hlen := d.length_places
    have hscale := d.scale_le
    rw [if_neg hplaces, readFrom, if_neg (by simp), if_neg (by decide), if_pos (by simp)]
    have hread : readFrom negative true true (Digits.value d.whole) 0 (d.places ++ []) = _ :=
      readFrom_digits (fun c => d.isDigit_of_mem_places) hplaces (by omega)
        (by rw [hvalue]; exact hlt) []
    rw [List.append_nil, hvalue] at hread
    rw [hread, readFrom, if_pos rfl, if_pos rfl, Nat.zero_add, hlen]

/-- A printed decimal is read with its scale. -/
theorem ofText?_text : ofText? d.text = some d.asRead := by
  have hplain : ofPlain? d.text = some d.asRead := by
    rw [text_eq, ← ofParts?_eq_asRead, List.append_assoc]
    cases hnegative : d.negative with
    | true =>
      rw [if_pos rfl]
      exact d.readFrom_text true
    | false =>
      rw [if_neg (by simp), List.nil_append, ← d.readFrom_text false]
      -- The first character is a digit and no sign.
      obtain ⟨c, tail, hwhole⟩ := List.exists_cons_of_ne_nil d.whole_ne_nil
      have hc : c.isDigit = true := d.isDigit_of_mem_whole (by simp [hwhole])
      rw [hwhole, List.cons_append, ofPlain?.eq_def]
      split
      case h_1 heq =>
        obtain rfl := (List.cons.inj heq).1
        simp at hc
      case h_2 heq =>
        obtain rfl := (List.cons.inj heq).1
        simp at hc
      case h_3 => rfl
  rw [ofText?, hplain]
  rfl

end

end SqlSelect.Decimal
