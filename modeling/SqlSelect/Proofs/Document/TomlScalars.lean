import SqlSelect.Document.Toml.Scalar
import SqlSelect.Proofs.Document.JsonGrammar

/-!
# Scalars in TOML texts

Strings with escapes and numbers are read back up to their ends. A number that JSON has a
text for has the same text in TOML, and no number is taken for a date or a time.

## Main definitions

* `Toml.ValueEnd`: the texts that may follow a value;
* `Toml.quoted`: a string with its escapes.

## Main statements

* `Toml.string?_quoted`: a quoted string is read as itself;
* `Toml.scalar?_ofInt` and `Toml.scalar?_text`: so are integers of 64 bits and finite
  doubles.
-/

namespace SqlSelect.Toml

/-- A text that may follow a value. -/
def ValueEnd (rest : List Char) : Prop :=
  ∀ c ∈ rest.head?, c = ',' ∨ c = ' ' ∨ c = ']' ∨ c = '\n'

theorem ValueEnd.cons {c : Char} (h : c = ',' ∨ c = ' ' ∨ c = ']' ∨ c = '\n')
    (rest : List Char) : ValueEnd (c :: rest) := by
  simpa [ValueEnd] using h

/-- What no following text starts with. -/
theorem ValueEnd.head_ne {rest : List Char} (h : ValueEnd rest) {c : Char}
    (hc : c ≠ ',' ∧ c ≠ ' ' ∧ c ≠ ']' ∧ c ≠ '\n') : c ∉ rest.head? := by
  intro hmem
  obtain rfl | rfl | rfl | rfl := h c hmem <;> simp at hc

theorem ValueEnd.tokenEnd {rest : List Char} (h : ValueEnd rest) : Json.TokenEnd rest := by
  intro c hc
  obtain rfl | rfl | rfl | rfl := h c hc <;> decide

/-! ### Strings -/

/-- Strings are escaped as in JSON, apart from the delete character, which is escaped
    here. -/
def escaped (c : Char) : List Char :=
  if c = '\x7f' then ['\\', 'u', '0', '0', '7', 'f'] else Json.escaped c

def quoted (s : String) : List Char := '"' :: s.toList.flatMap escaped ++ ['"']

section

variable {c : Char} (fuel : Nat)

theorem basicBody_backslash {cs rest : List Char} (h : escape? cs = some (c, rest)) :
    basicBody (fuel + 1) ('\\' :: cs) = consChar c (basicBody fuel rest) := by
  simp [basicBody, h]

theorem basicBody_plain (hquote : c ≠ '"') (hbackslash : c ≠ '\\') (hplain : isPlain c = true)
    (rest : List Char) :
    basicBody (fuel + 1) (c :: rest) = consChar c (basicBody fuel rest) := by
  rw [basicBody, if_pos hplain]
  · exact hquote
  · exact hbackslash

/-- A character is read from its code. -/
theorem escape?_code {h₁ h₂ h₃ h₄ : Char} (hcode : Json.hexValue? [h₁, h₂, h₃, h₄] = some c.toNat)
    (rest : List Char) : escape? ('u' :: h₁ :: h₂ :: h₃ :: h₄ :: rest) = some (c, rest) := by
  have hvalue : [h₁, h₂, h₃, h₄].foldlM (fun n c => (hexDigit? c).map (16 * n + ·)) 0 =
      some c.toNat := hcode
  have hvalid : c.toNat.isValidChar := c.valid
  simp only [escape?, codePoint?, List.take_succ_cons, List.take_zero, hvalue,
    Option.bind_eq_bind, Option.bind_some, List.length_cons, List.length_nil, Nat.zero_add,
    Nat.reduceAdd, hvalid, and_self, if_true, Char.ofNat_toNat, List.drop_succ_cons,
    List.drop_zero]

theorem isPlain_of_not_control {c : Char} (hcontrol : ¬c.toNat < 0x20) (hdelete : c ≠ '\x7f') :
    isPlain c = true := by
  have hcode : c.toNat ≠ 0x7F := by
    intro hcode
    exact hdelete (Char.ext (UInt32.toNat_inj.1 hcode))
  simp [isPlain, hcode]
  omega

/-- An escaped character is read back. -/
theorem basicBody_escaped (c : Char) (rest : List Char) :
    basicBody (fuel + 1) (escaped c ++ rest) = consChar c (basicBody fuel rest) := by
  rw [escaped]
  split
  case isTrue hdelete =>
    subst hdelete
    exact basicBody_backslash fuel (escape?_code (by decide) rest)
  case isFalse hdelete =>
    rw [Json.escaped.eq_def]
    split
    case h_8 hquote hbackslash _ _ _ _ _ =>
      split
      case isTrue hcontrol =>
        exact basicBody_backslash fuel (escape?_code (Json.hexValue?_control hcontrol) rest)
      case isFalse hcontrol =>
        exact basicBody_plain fuel hquote hbackslash (isPlain_of_not_control hcontrol hdelete) rest
    all_goals exact basicBody_backslash fuel rfl

end

theorem basicBody_flatMap (cs rest : List Char) {fuel : Nat} (h : cs.length < fuel) :
    basicBody fuel (cs.flatMap escaped ++ '"' :: rest) = some (cs, rest) := by
  induction cs generalizing fuel with
  | nil =>
    obtain ⟨fuel, rfl⟩ := Nat.exists_eq_add_one_of_ne_zero (Nat.ne_zero_of_lt h)
    rfl
  | cons c cs ih =>
    obtain ⟨fuel, rfl⟩ := Nat.exists_eq_add_one_of_ne_zero (Nat.ne_zero_of_lt h)
    rw [List.flatMap_cons, List.append_assoc, basicBody_escaped,
      ih (by simpa using h)]
    rfl

/-- A string on one line starts with no more than two quotes. -/
theorem string?_quote {body : List Char} (h : body.take 2 ≠ ['"', '"']) :
    string? ('"' :: body) = lineString? ('"' :: body) := by
  match body with
  | [] | [_] => rfl
  | b :: c :: rest =>
    rw [string?, if_neg]
    rintro ⟨-, rfl, rfl⟩
    exact h rfl

theorem head?_escaped (c : Char) : ∃ d tail, escaped c = d :: tail ∧ d ≠ '"' := by
  rw [escaped]
  split
  case isTrue => exact ⟨_, _, rfl, by decide⟩
  case isFalse =>
    rw [Json.escaped.eq_def]
    split
    case h_8 hquote _ _ _ _ _ _ =>
      split
      case isTrue => exact ⟨_, _, rfl, by decide⟩
      case isFalse => exact ⟨_, _, rfl, hquote⟩
    all_goals exact ⟨_, _, rfl, by decide⟩

theorem length_le_length_flatMap_escaped (cs : List Char) :
    cs.length ≤ (cs.flatMap escaped).length := by
  induction cs with
  | nil => exact Nat.le_refl 0
  | cons c cs ih =>
    obtain ⟨d, tail, hd, -⟩ := head?_escaped c
    simp only [List.flatMap_cons, List.length_append, List.length_cons, hd]
    omega

/-- A quoted string is read up to its closing quote, if no quote follows it. -/
theorem string?_quoted (s : String) {rest : List Char} (hrest : '"' ∉ rest.head?) :
    string? (quoted s ++ rest) = some (s, rest) := by
  have htext : quoted s ++ rest = '"' :: (s.toList.flatMap escaped ++ '"' :: rest) := by
    simp [quoted]
  have htake : (s.toList.flatMap escaped ++ '"' :: rest).take 2 ≠ ['"', '"'] := by
    cases s.toList with
    | nil =>
      cases rest with
      | nil => simp
      | cons c rest => simpa using hrest
    | cons c cs =>
      obtain ⟨d, tail, hd, hne⟩ := head?_escaped c
      simp [hd, hne]
  have hlength : s.toList.length < (s.toList.flatMap escaped ++ '"' :: rest).length + 1 := by
    have hle := length_le_length_flatMap_escaped s.toList
    rw [List.length_append]
    omega
  rw [htext, string?_quote htake, lineString?, basicBody_flatMap _ _ hlength, Option.map_some]
  simp only [String.ofList_toList]

/-! ### Numbers -/

theorem moreDigits_append {ds rest : List Char} (hds : ∀ c ∈ ds, c.isDigit = true)
    (hrest : Digits.End rest) (hseparator : '_' ∉ rest.head?) :
    moreDigits Char.isDigit (ds ++ rest) = some (ds, rest) := by
  induction ds with
  | nil =>
    cases rest with
    | nil => rfl
    | cons c rest =>
      have hc : c.isDigit = false := hrest c rfl
      have hne : c ≠ '_' := by simpa [eq_comm] using hseparator
      rw [List.nil_append, moreDigits.eq_def]
      simp [hc, hne]
  | cons c ds ih =>
    obtain ⟨hc, hds⟩ := List.forall_mem_cons.1 hds
    have hne : c ≠ '_' := by
      rintro rfl
      simp at hc
    rw [List.cons_append, moreDigits.eq_def]
    simp [hc, hne, ih hds, consChar]

theorem digits?_append {ds rest : List Char} (hds : Json.IsDigits ds) (hrest : Digits.End rest)
    (hseparator : '_' ∉ rest.head?) : digits? Char.isDigit (ds ++ rest) = some (ds, rest) := by
  obtain ⟨c, tail, rfl⟩ := List.exists_cons_of_ne_nil hds.ne_nil
  obtain ⟨hc, htail⟩ := List.forall_mem_cons.1 hds.isDigit
  rw [List.cons_append, digits?, if_pos hc, moreDigits_append htail hrest hseparator]
  rfl

theorem whole?_append {ds rest : List Char} (hds : Json.IsWhole ds) (hrest : Digits.End rest)
    (hseparator : '_' ∉ rest.head?) : whole? (ds ++ rest) = some (ds, rest) := by
  have hdigits := digits?_append ⟨hds.isDigit, hds.ne_nil⟩ hrest hseparator
  obtain ⟨c, tail, rfl⟩ := List.exists_cons_of_ne_nil hds.ne_nil
  rw [List.cons_append] at hdigits ⊢
  by_cases hc : c = '0'
  · -- A zero is the only digit.
    subst hc
    obtain rfl := hds.eq_nil_of_zero tail rfl
    rfl
  · rw [whole?, hdigits]
    intro more heq
    exact hc (List.cons.inj heq).1

theorem fraction?_append {cs fraction rest : List Char} (h : Json.FractionText cs fraction)
    (hpoint : '.' ∉ rest.head?) (hrest : Digits.End rest) (hseparator : '_' ∉ rest.head?) :
    fraction? (cs ++ rest) = some (fraction, rest) := by
  cases h with
  | point h => exact digits?_append h hrest hseparator
  | none =>
    cases rest with
    | nil => rfl
    | cons c rest =>
      rw [List.nil_append, fraction?]
      rintro more heq
      obtain rfl := (List.cons.inj heq).1
      simp at hpoint

theorem exponent?_append {cs rest : List Char} {exponent : Option Int}
    (h : Json.ExponentText cs exponent) (hrest : ValueEnd rest) :
    exponent? (cs ++ rest) = some (exponent, rest) := by
  cases h with
  | none =>
    cases rest with
    | nil => rfl
    | cons c rest =>
      obtain ⟨-, -, he, hE⟩ := hrest.tokenEnd c rfl
      rw [List.nil_append, exponent?, if_neg (by simp [he, hE])]
  | @mark e cs ds negative he hsign h =>
    have hdigits := digits?_append h hrest.tokenEnd.digitsEnd (hrest.head_ne (by decide))
    rw [List.cons_append, List.append_assoc, exponent?, if_pos he, hsign.spanSign h]
    simp only [hdigits, Option.bind_eq_bind, Option.bind_some]

/-- A number that is read digit by digit, up to the end of its text. -/
theorem decimalNumber?_append (negative : Bool) {whole cs fraction es rest : List Char}
    {exponent : Option Int} (hwhole : Json.IsWhole whole)
    (hfraction : Json.FractionText cs fraction) (hexponent : Json.ExponentText es exponent)
    (hrest : ValueEnd rest) :
    decimalNumber? negative (whole ++ (cs ++ (es ++ rest))) =
      if fraction = [] ∧ exponent = none then
        (integerTree? (if negative then -Digits.value whole else Digits.value whole)).map (·, rest)
      else if NumberLiteral.toDouble ⟨negative, whole, fraction, exponent.getD 0⟩ =
        .infinite false then none
      else some (.float (NumberLiteral.toDouble ⟨negative, whole, fraction, exponent.getD 0⟩),
        rest) := by
  have hseparator : '_' ∉ rest.head? := hrest.head_ne (by decide)
  obtain ⟨hpoint, hend⟩ := hexponent.head hrest.tokenEnd
  have hmark : '_' ∉ (es ++ rest).head? := by
    cases hexponent with
    | none => exact hseparator
    | mark he => obtain rfl | rfl := he <;> simp
  have hmark' : '_' ∉ (cs ++ (es ++ rest)).head? := by
    cases hfraction with
    | none => exact hmark
    | point => simp
  rw [decimalNumber?, whole?_append hwhole (hfraction.digitsEnd hend) hmark']
  simp only [fraction?_append hfraction hpoint hend hmark, exponent?_append hexponent hrest,
    Option.bind_eq_bind, Option.bind_some]
  split
  case isTrue => cases integerTree? _ <;> rfl
  case isFalse => rfl

/-- What stands behind the digits before the point. -/
theorem head_behind_whole {cs fraction es rest : List Char} {exponent : Option Int}
    (hfraction : Json.FractionText cs fraction) (hexponent : Json.ExponentText es exponent)
    (hrest : ValueEnd rest) : ∀ c ∈ (cs ++ (es ++ rest)).head?,
      c = '.' ∨ c = 'e' ∨ c = 'E' ∨ c = ',' ∨ c = ' ' ∨ c = ']' ∨ c = '\n' := by
  intro c hc
  cases hfraction with
  | point => exact .inl (by simpa [eq_comm] using hc)
  | none =>
    cases hexponent with
    | none => exact .inr (.inr (.inr (hrest c hc)))
    | @mark e cs ds negative he =>
      obtain rfl : c = e := by simpa [eq_comm] using hc
      exact .inr (he.elim .inl (.inr ∘ .inl))

/-- A number of digits has nothing behind it but what stands behind all digits. -/
theorem after?_fixed? {mark : Char} {width n : Nat} {cs rest : List Char}
    (hcs : mark ∉ (cs.dropWhile Char.isDigit).head?) (hmark : mark.isDigit = false)
    (h : fixed? width cs = some (n, rest)) : after? mark rest = none := by
  rw [fixed?] at h
  split at h
  case isFalse => cases h
  case isTrue hdigits =>
    obtain ⟨-, rfl⟩ := Prod.mk.inj (Option.some.inj h)
    have hdrop : cs.dropWhile Char.isDigit = (cs.drop width).dropWhile Char.isDigit := by
      conv_lhs => rw [← List.take_append_drop width cs]
      exact List.dropWhile_append_of_pos (List.all_eq_true.1 hdigits.2)
    rw [hdrop] at hcs
    cases hrest : cs.drop width with
    | nil => rfl
    | cons c more =>
      rw [hrest] at hcs
      rw [after?, if_neg]
      rintro rfl
      simp [hmark] at hcs

theorem dateTime?_eq_none {cs : List Char} (hdash : '-' ∉ (cs.dropWhile Char.isDigit).head?)
    (hcolon : ':' ∉ (cs.dropWhile Char.isDigit).head?) : dateTime? cs = none := by
  have hdate : date? cs = none := by
    rw [date?]
    cases hyear : fixed? 4 cs with
    | none => rfl
    | some year => simp [after?_fixed? hdash (by decide) hyear]
  have htime : time? cs = none := by
    rw [time?]
    cases hhour : fixed? 2 cs with
    | none => rfl
    | some hour => simp [after?_fixed? hcolon (by decide) hhour]
  rw [dateTime?, hdate]
  exact htime

theorem dateTime?_minus (cs : List Char) : dateTime? ('-' :: cs) = none := by
  have hfixed : ∀ width, fixed? (width + 1) ('-' :: cs) = none := by
    intro width
    rw [fixed?]
    simp
  simp [dateTime?, date?, time?, hfixed]

theorem number?_digit (negative : Bool) {d : Char} {tail : List Char} (hd : d.isDigit = true)
    (htail : ∀ c ∈ tail.head?, c ≠ 'x' ∧ c ≠ 'o' ∧ c ≠ 'b') :
    number? (Json.sign negative ++ d :: tail) = decimalNumber? negative (d :: tail) := by
  have hunsigned : unsigned? negative (d :: tail) = decimalNumber? negative (d :: tail) := by
    rw [unsigned?]
    all_goals
      intro _ heq
      obtain rfl := (List.cons.inj heq).1
      simp at hd
  rw [← hunsigned]
  cases negative with
  | true => rfl
  | false =>
    rw [Json.sign, if_neg (by simp), List.nil_append, number?]
    all_goals
      intro _ heq
      obtain ⟨rfl, rfl⟩ := List.cons.inj heq
      simp at htail hd

/-- A number is read as one, up to the end of its text. -/
theorem scalar?_append (negative : Bool) {whole cs fraction es rest : List Char}
    {exponent : Option Int} (hwhole : Json.IsWhole whole)
    (hfraction : Json.FractionText cs fraction) (hexponent : Json.ExponentText es exponent)
    (hrest : ValueEnd rest) :
    scalar? (Json.sign negative ++ (whole ++ (cs ++ (es ++ rest)))) =
      decimalNumber? negative (whole ++ (cs ++ (es ++ rest))) := by
  have hbehind := head_behind_whole hfraction hexponent hrest
  generalize cs ++ (es ++ rest) = behind at hbehind
  have hend : Digits.End behind := by
    intro c hc
    obtain rfl | rfl | rfl | rfl | rfl | rfl | rfl := hbehind c hc <;> decide
  have hdrop : (whole ++ behind).dropWhile Char.isDigit = behind := by
    have hspan := Digits.span_append_of_isDigit hwhole.isDigit hend
    exact (Prod.mk.inj hspan).2
  have hdate : dateTime? (Json.sign negative ++ (whole ++ behind)) = none := by
    cases negative with
    | true => exact dateTime?_minus _
    | false =>
      refine dateTime?_eq_none ?_ ?_
      all_goals
        rw [Json.sign, if_neg (by simp), List.nil_append, hdrop]
        intro hc
        simpa using hbehind _ hc
  obtain ⟨d, more, rfl⟩ := List.exists_cons_of_ne_nil hwhole.ne_nil
  obtain ⟨hd, hmore⟩ := List.forall_mem_cons.1 hwhole.isDigit
  have htail : ∀ c ∈ (more ++ behind).head?, c ≠ 'x' ∧ c ≠ 'o' ∧ c ≠ 'b' := by
    intro c hc
    cases more with
    | nil => obtain rfl | rfl | rfl | rfl | rfl | rfl | rfl := hbehind c hc <;> decide
    | cons e more =>
      obtain rfl : e = c := by simpa using hc
      have he := hmore e List.mem_cons_self
      refine ⟨?_, ?_, ?_⟩ <;> (rintro rfl; simp at he)
  rw [scalar?, hdate]
  exact number?_digit negative hd htail

/-- A printed integer of 64 bits is read up to its end. -/
theorem scalar?_ofInt {n : Int} (h : (Int64.ofInt n).toInt = n) {rest : List Char}
    (hrest : ValueEnd rest) : scalar? (Digits.ofInt n ++ rest) = some (.int n, rest) := by
  have hparts : ∀ negative k, n = (if negative then -(k : Int) else k) →
      scalar? (Json.sign negative ++ (Digits.ofNat k ++ rest)) = some (.int n, rest) := by
    intro negative k hn
    have hread := scalar?_append negative (.ofNat k) .none .none hrest
    rw [decimalNumber?_append negative (.ofNat k) .none .none hrest, if_pos ⟨rfl, rfl⟩,
      Digits.value_ofNat, ← hn, integerTree?, if_pos h] at hread
    exact hread
  cases n with
  | ofNat k => simpa [Json.sign, Digits.ofInt] using hparts false k (by simp)
  | negSucc k => simpa [Json.sign, Digits.ofInt] using hparts true (k + 1) (by simp; omega)

/-- The text of a double has a point or an exponent. -/
theorem exists_mark_mem_text {x : Double} (hx : x.isFinite = true) :
    ∃ c ∈ x.text Json.floatLayout, c = '.' ∨ c = 'e' := by
  have hzero := Double.shortest_exponent_of_digits_eq_zero Json.floatLayout.tie hx
  have hmark : ∃ c ∈ Json.floatLayout.scientificText (x.shortest Json.floatLayout.tie),
      c = '.' ∨ c = 'e' := by
    generalize x.shortest Json.floatLayout.tie = s at hzero
    simp only [FloatLayout.scientificText, Json.floatLayout]
    split
    case isTrue =>
      rw [Int.sub_add_cancel]
      obtain ⟨whole, fraction, -, htext⟩ := Json.exists_spells_positionalText hzero
      exact ⟨'.', htext ▸ by simp, .inl rfl⟩
    case isFalse => exact ⟨'e', by simp [FloatLayout.exponentText], .inr rfl⟩
  obtain ⟨c, hc, hmark⟩ := hmark
  cases x with
  | finite negative m e h => exact ⟨c, List.mem_append_right _ hc, hmark⟩
  | _ => simp [Double.isFinite] at hx

/-- A number with a point or an exponent in its text is no integer. -/
theorem not_integer_of_mark_mem {negative : Bool} {whole cs fraction es : List Char}
    {exponent : Option Int} (hwhole : Json.IsWhole whole)
    (hfraction : Json.FractionText cs fraction) (hexponent : Json.ExponentText es exponent)
    {mark : Char} (hmark : mark = '.' ∨ mark = 'e')
    (hmem : mark ∈ Json.sign negative ++ (whole ++ (cs ++ es))) :
    ¬(fraction = [] ∧ exponent = none) := by
  rintro ⟨rfl, rfl⟩
  cases hexponent
  cases hfraction with
  | point h => exact h.ne_nil rfl
  | none =>
    -- Without either there are only digits and a sign.
    rw [List.append_nil, List.append_nil, List.mem_append] at hmem
    obtain hsign | hdigit := hmem
    · cases negative <;> simp [Json.sign] at hsign
      obtain rfl := hsign
      simp at hmark
    · have := hwhole.isDigit mark hdigit
      obtain rfl | rfl := hmark <;> simp at this

/-- A printed double is read up to its end. -/
theorem scalar?_text {x : Double} (hx : x.isFinite = true) {rest : List Char}
    (hrest : ValueEnd rest) : scalar? (x.text Json.floatLayout ++ rest) = some (.float x, rest) := by
  -- Its text is that of a number in JSON too, where it stands for the same.
  obtain ⟨text, htext, hnumber⟩ := Json.exists_numberText (Json.number?_text hx .nil)
  rw [List.append_nil, List.append_nil] at htext
  obtain ⟨mark, hmem, hmark⟩ := exists_mark_mem_text hx
  rw [htext] at hmem ⊢
  generalize htree : Tree.float x = t at hnumber
  cases hnumber with
  | @mk negative whole cs fraction es exponent hwhole hfraction hexponent =>
    have hparts := not_integer_of_mark_mem hwhole hfraction hexponent hmark hmem
    rw [← htree]
    rw [Json.numberTree, if_neg hparts, Json.floatTree] at htree
    split at htree
    case isFalse => cases htree
    case isTrue =>
      have hvalue := Tree.float.inj htree
      have hread := scalar?_append negative hwhole hfraction hexponent hrest
      rw [decimalNumber?_append negative hwhole hfraction hexponent hrest, if_neg hparts,
        ← hvalue, if_neg] at hread
      · simpa using hread
      · rintro rfl
        simp [Double.isFinite] at hx

end SqlSelect.Toml
