import SqlSelect.Document.Json.Printer
import SqlSelect.Document.Json.Reader
import SqlSelect.Proofs.Number.Shortest

/-!
# Numbers in JSON texts

A printed number is read up to its end, whatever follows it, and stands for the
number that was printed. An integer that does not fit into 64 bits comes back as the
double nearest to it.

## Main definitions

* `Json.TokenEnd`: the texts that a number does not go on with;
* `Json.IsWhole`: the digits that may stand before a point;
* `Json.intTree`: what an integer is read as.

## Main statements

* `Json.number?_ofInt`: an integer is read as `Json.intTree`;
* `Json.number?_text`: a finite double is read as itself.
-/

namespace SqlSelect.Json

/-- A text that a number does not go on with. -/
def TokenEnd (rest : List Char) : Prop :=
  ∀ c ∈ rest.head?, c.isDigit = false ∧ c ≠ '.' ∧ c ≠ 'e' ∧ c ≠ 'E'

theorem TokenEnd.nil : TokenEnd [] := by simp [TokenEnd]

theorem TokenEnd.cons {c : Char} (hc : c.isDigit = false ∧ c ≠ '.' ∧ c ≠ 'e' ∧ c ≠ 'E')
    (rest : List Char) : TokenEnd (c :: rest) := by
  simpa [TokenEnd] using hc

theorem TokenEnd.digitsEnd {rest : List Char} (h : TokenEnd rest) : Digits.End rest :=
  fun c hc => (h c hc).1

/-! ### The parts of a number -/

/-- Digits that may stand before a point: there are some, and only a zero alone
    starts with one. -/
structure IsWhole (ds : List Char) : Prop where
  isDigit : ∀ c ∈ ds, c.isDigit = true
  ne_nil : ds ≠ []
  eq_nil_of_zero : ∀ rest, ds = '0' :: rest → rest = []

theorem IsWhole.ofNat (n : Nat) : IsWhole (Digits.ofNat n) where
  isDigit _ := Digits.isDigit_of_mem_ofNat
  ne_nil := Digits.ofNat_ne_nil n
  eq_nil_of_zero rest h := by
    have hn := Digits.eq_zero_of_ofNat_eq_cons h
    subst hn
    exact (List.cons.inj (h.symm.trans (Nat.toDigits_zero 10))).2

theorem IsWhole.singleton {c : Char} (hc : c.isDigit = true) : IsWhole [c] where
  isDigit := by simpa using hc
  ne_nil := List.cons_ne_nil _ _
  eq_nil_of_zero rest h := (List.cons.inj h).2.symm

/-- The digits of a number that is not zero start with none, so more digits may
    follow them and fewer may be taken. -/
theorem isWhole_of_head {n : Nat} (hn : n ≠ 0) {ds : List Char}
    (hds : ∀ c ∈ ds, c.isDigit = true) (hne : ds ≠ [])
    (hhead : ds.head? = (Digits.ofNat n).head?) : IsWhole ds where
  isDigit := hds
  ne_nil := hne
  eq_nil_of_zero rest h := by
    rw [h, List.head?_cons] at hhead
    obtain ⟨tail, htail⟩ := List.head?_eq_some_iff.1 hhead.symm
    exact absurd (Digits.eq_zero_of_ofNat_eq_cons htail) hn

theorem whole?_append {ds rest : List Char} (hds : IsWhole ds) (hrest : Digits.End rest) :
    whole? (ds ++ rest) = some (ds, rest) := by
  rw [whole?, Digits.span_append_of_isDigit hds.isDigit hrest]
  split
  case h_1 h => exact absurd (Prod.mk.inj h).1 hds.ne_nil
  case h_2 h => exact absurd (hds.eq_nil_of_zero _ (Prod.mk.inj h).1) (List.cons_ne_nil _ _)
  case h_3 h => rw [(Prod.mk.inj h).1, (Prod.mk.inj h).2]

theorem fraction?_of_end {rest : List Char} (h : '.' ∉ rest.head?) :
    fraction? rest = some ([], rest) := by
  cases rest with
  | nil => rfl
  | cons c rest =>
    have hc : c ≠ '.' := by simpa using h
    rw [fraction?]
    simpa using hc

theorem fraction?_point {ds rest : List Char} (hds : ∀ c ∈ ds, c.isDigit = true)
    (hne : ds ≠ []) (hrest : Digits.End rest) :
    fraction? ('.' :: (ds ++ rest)) = some (ds, rest) := by
  rw [fraction?, Digits.span_append_of_isDigit hds hrest]
  split
  case h_1 h => exact absurd (Prod.mk.inj h).1 hne
  case h_2 h => rw [(Prod.mk.inj h).1, (Prod.mk.inj h).2]

theorem exponent?_of_end {rest : List Char} (h : TokenEnd rest) :
    exponent? rest = some (none, rest) := by
  cases rest with
  | nil => rfl
  | cons c rest =>
    obtain ⟨-, -, he, hE⟩ := h c rfl
    rw [exponent?, if_neg (by simp [he, hE])]

/-- Behind the letter of an exponent its sign is split off, and the digits are read up to
    their end. -/
theorem exponent?_of_sign {cs rest : List Char} {negative : Bool} {n : Nat}
    (hsign : NumberLiteral.spanSign cs = (negative, Digits.ofNat n ++ rest))
    (hrest : Digits.End rest) :
    exponent? ('e' :: cs) = some (some (if negative then -(n : Int) else n), rest) := by
  have hdigits : ∀ c ∈ Digits.ofNat n, c.isDigit = true := fun c => Digits.isDigit_of_mem_ofNat
  rw [exponent?, if_pos (.inl rfl), hsign]
  simp only [Digits.span_append_of_isDigit hdigits hrest]
  split
  case h_1 h => exact absurd (Prod.mk.inj h).1 (Digits.ofNat_ne_nil n)
  case h_2 h =>
    obtain ⟨rfl, rfl⟩ := Prod.mk.inj h
    rw [Digits.value_ofNat]

/-- The mark of an exponent, its sign and its digits. -/
def exponentMark (power : Int) : List Char :=
  'e' :: ((if 0 ≤ power then ['+'] else []) ++ Digits.ofInt power)

/-- An exponent is read with its sign, in either direction. -/
theorem exponent?_mark (power : Int) {rest : List Char} (hrest : Digits.End rest) :
    exponent? (exponentMark power ++ rest) = some (some power, rest) := by
  cases power with
  | ofNat n =>
    have hsign : NumberLiteral.spanSign ('+' :: (Digits.ofNat n ++ rest)) =
        (false, Digits.ofNat n ++ rest) := rfl
    simpa [exponentMark, Digits.ofInt] using exponent?_of_sign hsign hrest
  | negSucc n =>
    have hsign : NumberLiteral.spanSign ('-' :: (Digits.ofNat (n + 1) ++ rest)) =
        (true, Digits.ofNat (n + 1) ++ rest) := rfl
    rw [exponentMark, if_neg (Int.not_le.2 (Int.negSucc_lt_zero n)), Digits.ofInt]
    exact exponent?_of_sign hsign hrest

/-- A number behind its sign. -/
def unsigned? (negative : Bool) (cs : List Char) : Option (Tree × List Char) := do
  let (whole, rest) ← whole? cs
  let (fraction, rest) ← fraction? rest
  let (exponent, rest) ← exponent? rest
  let literal : NumberLiteral := ⟨negative, whole, fraction, exponent.getD 0⟩
  if fraction = [] ∧ exponent = none then some (integerTree literal, rest)
  else some (floatTree literal.toDouble, rest)

theorem number?_minus (rest : List Char) : number? ('-' :: rest) = unsigned? true rest := rfl

theorem number?_of_ne_minus {c : Char} (hc : c ≠ '-') (rest : List Char) :
    number? (c :: rest) = unsigned? false (c :: rest) := by
  rw [number?.eq_def]
  split
  case h_1 negative unsigned hsign =>
    split at hsign
    case h_1 hminus => exact absurd (List.cons.inj hminus).1 hc
    case h_2 =>
      obtain ⟨rfl, rfl⟩ := Prod.mk.inj hsign
      rfl

theorem head_of_whole? {cs ds rest : List Char} (h : whole? cs = some (ds, rest)) :
    ∃ c tail, cs = c :: tail ∧ c.isDigit = true := by
  cases cs with
  | nil => simp [whole?, Digits.span] at h
  | cons c tail =>
    refine ⟨c, tail, rfl, ?_⟩
    by_contra hc
    simp [whole?, Digits.span, hc] at h

/-- A number starts with a minus sign or a digit. -/
theorem head_of_number? {cs : List Char} {r : Tree × List Char} (h : number? cs = some r) :
    ∃ c tail, cs = c :: tail ∧ (c = '-' ∨ c.isDigit = true) := by
  cases cs with
  | nil =>
    have hnone : number? [] = none := rfl
    simp [hnone] at h
  | cons c tail =>
    by_cases hc : c = '-'
    · exact ⟨c, tail, rfl, .inl hc⟩
    · rw [number?_of_ne_minus hc, unsigned?] at h
      cases hwhole : whole? (c :: tail) with
      | none => simp [hwhole] at h
      | some parts =>
        obtain ⟨d, tail', heq, hd⟩ := head_of_whole? hwhole
        exact ⟨d, tail', heq, .inr hd⟩

/-- A minus sign, or nothing. -/
def sign (negative : Bool) : List Char := if negative then ['-'] else []

theorem exists_number?_eq_unsigned? (cs : List Char) : ∃ negative unsigned,
    cs = sign negative ++ unsigned ∧ number? cs = unsigned? negative unsigned := by
  cases cs with
  | nil => exact ⟨false, [], rfl, rfl⟩
  | cons c rest =>
    by_cases hc : c = '-'
    · subst hc
      exact ⟨true, rest, rfl, number?_minus rest⟩
    · exact ⟨false, c :: rest, rfl, number?_of_ne_minus hc rest⟩

/-- A number is read part by part. -/
theorem number?_of_parts (negative : Bool) {cs r₁ r₂ rest whole fraction : List Char}
    {exponent : Option Int} (hwhole : whole? cs = some (whole, r₁))
    (hfraction : fraction? r₁ = some (fraction, r₂))
    (hexponent : exponent? r₂ = some (exponent, rest)) :
    number? (sign negative ++ cs) = some
      (if fraction = [] ∧ exponent = none
        then integerTree ⟨negative, whole, fraction, exponent.getD 0⟩
        else floatTree (NumberLiteral.toDouble ⟨negative, whole, fraction, exponent.getD 0⟩),
      rest) := by
  have hunsigned : number? (sign negative ++ cs) = unsigned? negative cs := by
    cases negative with
    | true => exact number?_minus cs
    | false =>
      -- A text that starts with a digit has no minus sign in front.
      obtain ⟨c, tail, rfl, hc⟩ := head_of_whole? hwhole
      refine number?_of_ne_minus ?_ tail
      rintro rfl
      simp at hc
  simp only [hunsigned, unsigned?, hwhole, hfraction, hexponent, Option.bind_eq_bind,
    Option.bind_some]
  split <;> rfl

/-! ### Integers -/

/-- What an integer is read as: itself if it fits into 64 bits, with or without a
    sign, and else the double nearest to it. -/
def intTree (n : Int) : Tree :=
  if -9223372036854775808 ≤ n ∧ n < 18446744073709551616 then .int n
  else floatTree (Double.ofInt n)

theorem integerTree_ofNat (negative : Bool) (n : Nat) (h : negative = true → n ≠ 0) :
    integerTree ⟨negative, Digits.ofNat n, [], 0⟩ = intTree (if negative then -n else n) := by
  have hdigits : (NumberLiteral.mk negative (Digits.ofNat n) [] 0).digits = n := by
    rw [NumberLiteral.digits, List.append_nil, Digits.value_ofNat]
  have hdouble : (NumberLiteral.mk negative (Digits.ofNat n) [] 0).toDouble =
      Double.ofDecimal negative n 0 := by
    rw [NumberLiteral.toDouble, hdigits]
    rfl
  simp only [integerTree, hdigits, hdouble, intTree, Double.ofInt, UInt64.size]
  cases negative with
  | false =>
    have hsign : ¬(n : Int) < 0 := by omega
    simp only [Bool.false_eq_true, if_false, Int.natAbs_natCast, hsign, decide_false]
    split
    · rw [if_pos (by omega)]
    · rw [if_neg (by omega)]
  | true =>
    have hn := h rfl
    have hsign : -(n : Int) < 0 := by omega
    simp only [if_true, Int.natAbs_neg, Int.natAbs_natCast, hsign, decide_true]
    split
    · rw [if_pos (by omega)]
    · rw [if_neg (by omega)]

/-- A printed integer is read up to its end. -/
theorem number?_ofInt (n : Int) {rest : List Char} (hrest : TokenEnd rest) :
    number? (Digits.ofInt n ++ rest) = some (intTree n, rest) := by
  have hparts : ∀ negative k, (negative = true → k ≠ 0) →
      number? (sign negative ++ (Digits.ofNat k ++ rest)) =
        some (intTree (if negative then -k else k), rest) := by
    intro negative k hk
    rw [number?_of_parts negative (whole?_append (.ofNat k) hrest.digitsEnd)
      (fraction?_of_end fun hdot => (hrest _ hdot).2.1 rfl) (exponent?_of_end hrest),
      if_pos ⟨rfl, rfl⟩, Option.getD_none, integerTree_ofNat negative k hk]
  cases n with
  | ofNat k => simpa [sign, Digits.ofInt] using hparts false k (by simp)
  | negSucc k => simpa [sign, Digits.ofInt, Int.negSucc_eq] using hparts true (k + 1) (by simp)

/-! ### Doubles -/

/-- Digits before and behind a point stand for the number of all of them, over a power
    of ten for each one behind it. -/
theorem toDouble_mk (negative : Bool) (whole fraction : List Char) (exponent : Int) :
    NumberLiteral.toDouble ⟨negative, whole, fraction, exponent⟩ =
      Double.ofDecimal negative (Digits.value (whole ++ fraction))
        (exponent - fraction.length) := rfl

/-- A number with digits behind its point is read up to its end. -/
theorem number?_point (negative : Bool) {whole fraction rest : List Char}
    (hwhole : IsWhole whole) (hfraction : ∀ c ∈ fraction, c.isDigit = true)
    (hne : fraction ≠ []) (hrest : TokenEnd rest) :
    number? (sign negative ++ (whole ++ '.' :: fraction) ++ rest) =
      some (floatTree (Double.ofDecimal negative (Digits.value (whole ++ fraction))
        (-fraction.length)), rest) := by
  have hpoint : Digits.End ('.' :: (fraction ++ rest)) := .cons (by decide) _
  rw [List.append_assoc, List.append_assoc, List.cons_append,
    number?_of_parts negative (whole?_append hwhole hpoint)
      (fraction?_point hfraction hne hrest.digitsEnd) (exponent?_of_end hrest),
    if_neg (by simp [hne]), toDouble_mk, Option.getD_none, Int.zero_sub]

/-- Digits before and behind a point, some of them behind it, that stand for a decimal. -/
structure Spells (whole fraction : List Char) (s : Scientific) : Prop where
  isWhole : IsWhole whole
  isDigit : ∀ c ∈ fraction, c.isDigit = true
  ne_nil : fraction ≠ []
  ofDecimal_eq : ∀ negative, Double.ofDecimal negative (Digits.value (whole ++ fraction))
    (-fraction.length) = Double.ofDecimal negative s.digits s.exponent

section

variable {s : Scientific}

theorem isDigit_of_mem_zeros {k : Nat} {c : Char} (h : c ∈ List.replicate k '0') :
    c.isDigit = true := by
  rw [List.eq_of_mem_replicate h]
  decide

/-- All digits behind the point, after zeros. -/
theorem Spells.behind {k : Nat} (h : s.exponent + (Digits.ofNat s.digits).length = -k) :
    Spells ['0'] (List.replicate k '0' ++ Digits.ofNat s.digits) s where
  isWhole := .singleton (by decide)
  isDigit c hc := (List.mem_append.1 hc).elim isDigit_of_mem_zeros Digits.isDigit_of_mem_ofNat
  ne_nil := List.append_ne_nil_of_right_ne_nil _ (Digits.ofNat_ne_nil _)
  ofDecimal_eq negative := by
    have hvalue : Digits.value (['0'] ++ (List.replicate k '0' ++ Digits.ofNat s.digits)) =
        s.digits := by
      rw [show ['0'] = List.replicate 1 '0' from rfl, Digits.value_zeros_append,
        Digits.value_zeros_append, Digits.value_ofNat]
    rw [hvalue, List.length_append, List.length_replicate]
    congr 1
    omega

/-- All digits before the point, with zeros up to it. -/
theorem Spells.before {k : Nat} (hzero : s.digits = 0 → s.exponent = 0)
    (h : s.exponent = k) :
    Spells (Digits.ofNat s.digits ++ List.replicate k '0') ['0'] s where
  isWhole := by
    by_cases hs : s.digits = 0
    · have hk : k = 0 := by
        have := hzero hs
        omega
      rw [hk, List.replicate_zero, List.append_nil]
      exact .ofNat _
    · refine isWhole_of_head hs ?_ ?_ (List.head?_append_of_ne_nil _ (Digits.ofNat_ne_nil _))
      · exact fun c hc =>
          (List.mem_append.1 hc).elim Digits.isDigit_of_mem_ofNat isDigit_of_mem_zeros
      · exact List.append_ne_nil_of_left_ne_nil (Digits.ofNat_ne_nil _) _
  isDigit := by simp
  ne_nil := List.cons_ne_nil _ _
  ofDecimal_eq negative := by
    have hvalue : Digits.value (Digits.ofNat s.digits ++ List.replicate k '0' ++ ['0']) =
        s.digits * 10 ^ (k + 1) := by
      rw [List.append_assoc, ← List.replicate_succ', Digits.value_append_zeros,
        Digits.value_ofNat]
    rw [hvalue, Double.ofDecimal_mul_pow, h]
    congr 1
    push_cast [List.length_singleton]
    ring

/-- Digits on both sides of the point. -/
theorem Spells.around {k : Nat} (hk : 0 < k) (hlt : k < (Digits.ofNat s.digits).length)
    (h : s.exponent + (Digits.ofNat s.digits).length = k) :
    Spells ((Digits.ofNat s.digits).take k) ((Digits.ofNat s.digits).drop k) s where
  isWhole := by
    -- A number with two digits or more is not zero.
    have hs : s.digits ≠ 0 := by
      intro hs
      have hone : (Digits.ofNat s.digits).length = 1 := by
        rw [hs, Digits.ofNat, Nat.toDigits_zero]
        rfl
      omega
    refine isWhole_of_head hs ?_ ?_ ?_
    · exact fun c hc => Digits.isDigit_of_mem_ofNat (List.mem_of_mem_take hc)
    · simp [Nat.ne_of_gt hk, Digits.ofNat_ne_nil]
    · rw [List.head?_take, if_neg (Nat.ne_of_gt hk)]
  isDigit c hc := Digits.isDigit_of_mem_ofNat (List.mem_of_mem_drop hc)
  ne_nil hnil := by
    rw [List.drop_eq_nil_iff] at hnil
    omega
  ofDecimal_eq negative := by
    rw [List.take_append_drop, Digits.value_ofNat, List.length_drop]
    congr 1
    omega

/-- Positional notation spells the number. -/
theorem exists_spells_positionalText (hzero : s.digits = 0 → s.exponent = 0) :
    ∃ whole fraction, Spells whole fraction s ∧
      floatLayout.positionalText (Digits.ofNat s.digits)
        (s.exponent + (Digits.ofNat s.digits).length) = whole ++ '.' :: fraction := by
  rw [FloatLayout.positionalText]
  split
  case isTrue hpoint => exact ⟨_, _, .behind (by omega), rfl⟩
  case isFalse hpoint =>
    simp only
    split
    case isTrue hle => exact ⟨_, _, .before hzero (by omega), rfl⟩
    case isFalse hlt =>
      have hk : s.exponent + (Digits.ofNat s.digits).length =
          (s.exponent + (Digits.ofNat s.digits).length).toNat := by omega
      exact ⟨_, _, .around (by omega) (by omega) hk, by simp⟩

/-- A number in positional notation is read up to its end. -/
theorem number?_positionalText (negative : Bool) (hzero : s.digits = 0 → s.exponent = 0)
    {rest : List Char} (hrest : TokenEnd rest) :
    number? (sign negative ++ floatLayout.positionalText (Digits.ofNat s.digits)
        (s.exponent + (Digits.ofNat s.digits).length) ++ rest) =
      some (floatTree (Double.ofDecimal negative s.digits s.exponent), rest) := by
  obtain ⟨whole, fraction, hspells, htext⟩ := exists_spells_positionalText hzero
  rw [htext, number?_point negative hspells.isWhole hspells.isDigit hspells.ne_nil hrest,
    hspells.ofDecimal_eq]

/-- A number with an exponent is read up to its end. -/
theorem number?_mark (negative : Bool) (point : List Char) {whole fraction rest : List Char}
    {power : Int} (hwhole : IsWhole whole)
    (hpoint : Digits.End (point ++ (exponentMark power ++ rest)))
    (hfraction : fraction? (point ++ (exponentMark power ++ rest)) =
      some (fraction, exponentMark power ++ rest)) (hrest : TokenEnd rest) :
    number? (sign negative ++ (whole ++ point ++ exponentMark power) ++ rest) =
      some (floatTree (Double.ofDecimal negative (Digits.value (whole ++ fraction))
        (power - fraction.length)), rest) := by
  have htext : sign negative ++ (whole ++ point ++ exponentMark power) ++ rest =
      sign negative ++ (whole ++ (point ++ (exponentMark power ++ rest))) := by
    simp only [List.append_assoc]
  have hread := number?_of_parts negative (whole?_append hwhole hpoint) hfraction
    (exponent?_mark power hrest.digitsEnd)
  simp only [reduceCtorEq, and_false, if_false, Option.getD_some, toDouble_mk] at hread
  rw [htext, hread]

/-- A number in exponent notation is read up to its end. -/
theorem number?_exponentText (negative : Bool) {power : Int}
    (h : power = s.exponent + (Digits.ofNat s.digits).length - 1) {rest : List Char}
    (hrest : TokenEnd rest) :
    number? (sign negative ++ floatLayout.exponentText (Digits.ofNat s.digits) power ++ rest) =
      some (floatTree (Double.ofDecimal negative s.digits s.exponent), rest) := by
  have hvalue := Digits.value_ofNat s.digits
  have hdigit : ∀ c ∈ Digits.ofNat s.digits, c.isDigit = true :=
    fun c => Digits.isDigit_of_mem_ofNat
  have hmark : Digits.End (exponentMark power ++ rest) := .cons (by decide) _
  obtain ⟨d, more, hds⟩ := List.exists_cons_of_ne_nil (Digits.ofNat_ne_nil s.digits)
  rw [hds] at h hvalue hdigit ⊢
  have hwhole := IsWhole.singleton (hdigit d List.mem_cons_self)
  cases more with
  | nil =>
    -- One digit has no point behind it.
    have hpower : power - ([] : List Char).length = s.exponent := by
      simp only [List.length_nil, List.length_singleton] at h ⊢
      omega
    have hread := number?_mark negative [] hwhole hmark
      (fraction?_of_end (by simp [exponentMark])) hrest
    rw [List.append_nil, hvalue, hpower] at hread
    simpa [FloatLayout.exponentText, floatLayout, exponentMark] using hread
  | cons e more =>
    have hmore : ∀ c ∈ e :: more, c.isDigit = true :=
      fun c hc => hdigit c (List.mem_cons_of_mem d hc)
    have hpower : power - (e :: more).length = s.exponent := by
      simp only [List.length_cons] at h ⊢
      omega
    have hread := number?_mark negative ('.' :: e :: more) hwhole
      (.cons (by decide) _) (fraction?_point hmore (List.cons_ne_nil _ _) hmark) hrest
    have hvalue : Digits.value ([d] ++ e :: more) = s.digits := hvalue
    rw [hvalue, hpower] at hread
    simpa [FloatLayout.exponentText, floatLayout, exponentMark] using hread

end

/-- A finite double is read as itself. -/
theorem number?_text {x : Double} (hx : x.isFinite = true) {rest : List Char}
    (hrest : TokenEnd rest) :
    number? (x.text floatLayout ++ rest) = some (.float x, rest) := by
  have hread := Double.ofDecimal_shortest floatLayout.tie hx
  have hzero := Double.shortest_exponent_of_digits_eq_zero floatLayout.tie hx
  have htext : x.text floatLayout =
      sign x.isNegative ++ floatLayout.scientificText (x.shortest floatLayout.tie) := by
    cases x with
    | finite negative m e h => rfl
    | _ => simp [Double.isFinite] at hx
  have htree : floatTree (Double.ofDecimal x.isNegative (x.shortest floatLayout.tie).digits
      (x.shortest floatLayout.tie).exponent) = .float x := by
    rw [hread, floatTree, if_pos hx]
  rw [htext, ← htree]
  generalize x.shortest floatLayout.tie = s at *
  simp only [FloatLayout.scientificText, floatLayout]
  split
  case isTrue =>
    rw [Int.sub_add_cancel]
    exact number?_positionalText x.isNegative hzero hrest
  case isFalse => exact number?_exponentText x.isNegative rfl hrest

end SqlSelect.Json
