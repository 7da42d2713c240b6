import Mathlib.Data.List.TakeWhile
import SqlSelect.Proofs.Document.JsonReading

/-!
# The grammar of JSON

Which texts are JSON texts and what they stand for, stated without a reader: a rule for
every kind of value, with spaces between any two tokens. The reader takes exactly these
texts, for the trees that they stand for.

## Main definitions

* `Json.StringText` and `Json.NumberText`: strings between their quotes, and numbers;
* `Json.ValueText`: values, with `Json.ItemsText` and `Json.EntriesText`;
* `Json.Document`: a value with spaces around it.

## Main statements

* `Json.ValueText.reads`: every text of the grammar is read as the tree that it stands for;
* `Json.grammatical`: what is read is a text of the grammar;
* `Json.read?_eq_some_iff`: the reader reads the grammar.
-/

namespace SqlSelect.Json

/-! ### Rules -/

/-- The characters and escapes of a string, and the pieces that they stand for. -/
inductive StringText : List Char → List Piece → Prop
  | nil : StringText [] []
  | char {c : Char} {cs : List Char} {pieces : List Piece} (hquote : c ≠ '"')
      (hbackslash : c ≠ '\\') (hcontrol : ¬c.toNat < 0x20) (h : StringText cs pieces) :
      StringText (c :: cs) (.char c :: pieces)
  | escape {letter c : Char} {cs : List Char} {pieces : List Piece}
      (hletter : unescape? letter = some c) (h : StringText cs pieces) :
      StringText ('\\' :: letter :: cs) (.char c :: pieces)
  | code {a b c d : Char} {code : Nat} {cs : List Char} {pieces : List Piece}
      (hcode : hexValue? [a, b, c, d] = some code) (h : StringText cs pieces) :
      StringText ('\\' :: 'u' :: a :: b :: c :: d :: cs) (.ofCode code :: pieces)

/-- Digits, of which there are some. -/
structure IsDigits (ds : List Char) : Prop where
  isDigit : ∀ c ∈ ds, c.isDigit = true
  ne_nil : ds ≠ []

/-- A point and digits, or nothing. -/
inductive FractionText : List Char → List Char → Prop
  | none : FractionText [] []
  | point {ds : List Char} (h : IsDigits ds) : FractionText ('.' :: ds) ds

/-- A sign, or nothing. -/
inductive SignText : List Char → Bool → Prop
  | none : SignText [] false
  | plus : SignText ['+'] false
  | minus : SignText ['-'] true

/-- A letter, a sign and digits, or nothing. -/
inductive ExponentText : List Char → Option Int → Prop
  | none : ExponentText [] none
  | mark {e : Char} {cs ds : List Char} {negative : Bool} (he : e = 'e' ∨ e = 'E')
      (hsign : SignText cs negative) (h : IsDigits ds) :
      ExponentText (e :: (cs ++ ds))
        (some (if negative then -(Digits.value ds : Int) else Digits.value ds))

/-- The tree of a number from its parts: only one without point and exponent can be an
    integer. -/
def numberTree (negative : Bool) (whole fraction : List Char) (exponent : Option Int) : Tree :=
  if fraction = [] ∧ exponent = none then
    integerTree ⟨negative, whole, fraction, exponent.getD 0⟩
  else floatTree (NumberLiteral.toDouble ⟨negative, whole, fraction, exponent.getD 0⟩)

/-- A minus sign or nothing, digits, a fraction and an exponent. -/
inductive NumberText : List Char → Tree → Prop
  | mk (negative : Bool) {whole cs fraction es : List Char} {exponent : Option Int}
      (hwhole : IsWhole whole) (hfraction : FractionText cs fraction)
      (hexponent : ExponentText es exponent) :
      NumberText (sign negative ++ (whole ++ (cs ++ es)))
        (numberTree negative whole fraction exponent)

/-- A string as a tree. It is unusable if its halves of characters do not pair up. -/
def stringTree (pieces : List Piece) : Tree := (string? pieces).elim .unusable .text

mutual

/-- A text spells a tree. -/
inductive ValueText : List Char → Tree → Prop
  | null : ValueText ['n', 'u', 'l', 'l'] .null
  | bool (b : Bool) :
      ValueText (if b then ['t', 'r', 'u', 'e'] else ['f', 'a', 'l', 's', 'e']) (.bool b)
  | number {cs : List Char} {t : Tree} (h : NumberText cs t) : ValueText cs t
  | string {cs : List Char} {pieces : List Piece} (h : StringText cs pieces) :
      ValueText ('"' :: (cs ++ ['"'])) (stringTree pieces)
  | nilList {cs : List Char} (h : Spaces cs) : ValueText ('[' :: (cs ++ [']'])) (.list [])
  | list {cs : List Char} {ts : List Tree} (h : ItemsText cs ts) :
      ValueText ('[' :: (cs ++ [']'])) (.list ts)
  | nilTable {cs : List Char} (h : Spaces cs) : ValueText ('\x7b' :: (cs ++ ['\x7d'])) (.table [])
  | table {cs : List Char} {ms : List (Option String × Tree)} (h : EntriesText cs ms) :
      ValueText ('\x7b' :: (cs ++ ['\x7d'])) (tableTree ms)

/-- A text spells the items of a list, with commas between them and spaces around them. -/
inductive ItemsText : List Char → List Tree → Prop
  | single {before cs after : List Char} {t : Tree} (hbefore : Spaces before)
      (h : ValueText cs t) (hafter : Spaces after) : ItemsText (before ++ (cs ++ after)) [t]
  | cons {before cs after more : List Char} {t : Tree} {ts : List Tree}
      (hbefore : Spaces before) (h : ValueText cs t) (hafter : Spaces after)
      (hmore : ItemsText more ts) :
      ItemsText (before ++ (cs ++ (after ++ ',' :: more))) (t :: ts)

/-- A text spells a member: a key, a colon and a value, with spaces around the colon. -/
inductive EntryText : List Char → Option String × Tree → Prop
  | mk {body s₁ s₂ cs : List Char} {pieces : List Piece} {t : Tree}
      (hbody : StringText body pieces) (h₁ : Spaces s₁) (h₂ : Spaces s₂) (h : ValueText cs t) :
      EntryText ('"' :: (body ++ '"' :: (s₁ ++ ':' :: (s₂ ++ cs)))) (string? pieces, t)

/-- A text spells the members of a table, with commas between them and spaces around
    them. -/
inductive EntriesText : List Char → List (Option String × Tree) → Prop
  | single {before cs after : List Char} {m : Option String × Tree} (hbefore : Spaces before)
      (h : EntryText cs m) (hafter : Spaces after) :
      EntriesText (before ++ (cs ++ after)) [m]
  | cons {before cs after more : List Char} {m : Option String × Tree}
      {ms : List (Option String × Tree)} (hbefore : Spaces before) (h : EntryText cs m)
      (hafter : Spaces after) (hmore : EntriesText more ms) :
      EntriesText (before ++ (cs ++ (after ++ ',' :: more))) (m :: ms)

end

/-- A whole text is one value with spaces around it. -/
inductive Document : List Char → Tree → Prop
  | mk {before cs after : List Char} {t : Tree} (hbefore : Spaces before) (h : ValueText cs t)
      (hafter : Spaces after) : Document (before ++ (cs ++ after)) t

/-! ### Texts of the grammar are read -/

theorem StringText.stringBody {cs : List Char} {pieces : List Piece} (h : StringText cs pieces)
    (rest : List Char) : stringBody (cs ++ '"' :: rest) = some (pieces, rest) := by
  induction h with
  | nil => rw [List.nil_append, Json.stringBody]
  | char hquote hbackslash hcontrol _ ih =>
    rw [List.cons_append, stringBody_plain _ hquote hbackslash hcontrol, ih]
    rfl
  | @escape letter c cs pieces hletter _ ih =>
    have hu : letter ≠ 'u' := by
      rintro rfl
      cases hletter
    rw [List.cons_append, List.cons_append, stringBody_letter _ hu hletter, ih]
    rfl
  | code hcode _ ih =>
    simp only [List.cons_append]
    rw [Json.stringBody, hcode, ih]
    rfl

theorem SignText.spanSign {cs ds : List Char} {negative : Bool} (h : SignText cs negative)
    (hds : IsDigits ds) (rest : List Char) :
    NumberLiteral.spanSign (cs ++ (ds ++ rest)) = (negative, ds ++ rest) := by
  obtain ⟨c, tail, rfl⟩ := List.exists_cons_of_ne_nil hds.ne_nil
  have hc : c.isDigit = true := hds.isDigit c List.mem_cons_self
  cases h with
  | plus => rfl
  | minus => rfl
  | none =>
    rw [List.nil_append, List.cons_append, NumberLiteral.spanSign.eq_def]
    split
    case h_3 => rfl
    all_goals
      rename_i heq
      obtain rfl := (List.cons.inj heq).1
      simp at hc

theorem FractionText.fraction? {cs fraction rest : List Char} (h : FractionText cs fraction)
    (hpoint : '.' ∉ rest.head?) (hend : Digits.End rest) :
    fraction? (cs ++ rest) = some (fraction, rest) := by
  cases h with
  | none => exact fraction?_of_end hpoint
  | point h => exact fraction?_point h.isDigit h.ne_nil hend

theorem ExponentText.exponent? {cs rest : List Char} {exponent : Option Int}
    (h : ExponentText cs exponent) (hrest : TokenEnd rest) :
    exponent? (cs ++ rest) = some (exponent, rest) := by
  cases h with
  | none => exact exponent?_of_end hrest
  | @mark e cs ds negative he hsign h =>
    rw [List.cons_append, List.append_assoc, Json.exponent?, if_pos he, hsign.spanSign h]
    simp only [Digits.span_append_of_isDigit h.isDigit hrest.digitsEnd]
    split
    case h_1 heq => exact absurd (Prod.mk.inj heq).1 h.ne_nil
    case h_2 heq =>
      obtain ⟨rfl, rfl⟩ := Prod.mk.inj heq
      rfl

/-- Neither digits nor a point go on where an exponent or the end of the number stands. -/
theorem ExponentText.head {cs rest : List Char} {exponent : Option Int}
    (h : ExponentText cs exponent) (hrest : TokenEnd rest) :
    '.' ∉ (cs ++ rest).head? ∧ Digits.End (cs ++ rest) := by
  cases h with
  | none =>
    refine ⟨?_, hrest.digitsEnd⟩
    intro hpoint
    exact (hrest '.' hpoint).2.1 rfl
  | mark he hsign h =>
    obtain rfl | rfl := he
    · exact ⟨by simp, .cons (by decide) _⟩
    · exact ⟨by simp, .cons (by decide) _⟩

theorem FractionText.digitsEnd {cs fraction rest : List Char} (h : FractionText cs fraction)
    (hrest : Digits.End rest) : Digits.End (cs ++ rest) := by
  cases h with
  | none => exact hrest
  | point h => exact .cons (by decide) _

theorem NumberText.number? {cs rest : List Char} {t : Tree} (h : NumberText cs t)
    (hrest : TokenEnd rest) : number? (cs ++ rest) = some (t, rest) := by
  cases h with
  | @mk negative whole cs fraction es exponent hwhole hfraction hexponent =>
    obtain ⟨hpoint, hend⟩ := hexponent.head hrest
    have htext : sign negative ++ (whole ++ (cs ++ es)) ++ rest =
        sign negative ++ (whole ++ (cs ++ (es ++ rest))) := by simp
    rw [htext]
    exact number?_of_parts negative (whole?_append hwhole (hfraction.digitsEnd hend))
      (hfraction.fraction? hpoint hend) (hexponent.exponent? hrest)

theorem reads_string {cs : List Char} {pieces : List Piece} (h : StringText cs pieces) :
    Reads ('"' :: (cs ++ ['"'])) (stringTree pieces) := by
  intro fuel spaces rest hfuel hspaces _
  obtain ⟨fuel, rfl⟩ := Nat.exists_eq_add_one_of_ne_zero (Nat.ne_zero_of_lt hfuel)
  have htext : '"' :: (cs ++ ['"']) ++ rest = '"' :: (cs ++ '"' :: rest) := by simp
  rw [htext, readValue, skipSpace_spaces_cons hspaces (by decide)]
  simp only [h.stringBody, Option.bind_eq_bind, Option.bind_some]
  rfl

mutual

/-- A text of the grammar stands for the tree that it spells. -/
theorem ValueText.reads {cs : List Char} {t : Tree} (h : ValueText cs t) : Reads cs t :=
  match h with
  | .null => reads_null
  | .bool b => reads_bool b
  | .number h => reads_of_number? fun _ => h.number?
  | .string h => reads_string h
  | .nilList h => .nil_list h
  | .list h => .list h.readsItems
  | .nilTable h => .nil_table h
  | .table h => .table h.readsMembers

theorem ItemsText.readsItems {cs : List Char} {ts : List Tree} (h : ItemsText cs ts) :
    ReadsItems cs ts :=
  match h with
  | .single hbefore h hafter => .single h.reads hbefore hafter
  | .cons hbefore h hafter hmore => .cons h.reads hbefore hafter hmore.readsItems

theorem EntryText.memberText {cs : List Char} {m : Option String × Tree}
    (h : EntryText cs m) : MemberText cs m :=
  match h with
  | .mk hbody h₁ h₂ h => .mk hbody.stringBody h₁ h₂ h.reads

theorem EntriesText.readsMembers {cs : List Char} {ms : List (Option String × Tree)}
    (h : EntriesText cs ms) : ReadsMembers cs ms :=
  match h with
  | .single hbefore h hafter => .single h.memberText hbefore hafter
  | .cons hbefore h hafter hmore => .cons h.memberText hbefore hafter hmore.readsMembers

end

theorem Document.read? {text : String} {t : Tree} (h : Document text.toList t) :
    read? text = some t := by
  rw [Json.read?]
  generalize text.toList = cs at h
  cases h with
  | @mk before cs after t hbefore h hafter =>
    have hend : TokenEnd after := by simpa using TokenEnd.spaces_append hafter .nil
    have hread := h.reads (2 * (before ++ (cs ++ after)).length + 2) before after
      (by simp only [List.length_append]; omega) hbefore hend
    have hspace : skipSpace after = [] := by simpa [skipSpace] using skipSpace_append hafter []
    simp only [hread, hspace, Option.bind_eq_bind, Option.bind_some, if_true]

/-! ### What is read is a text of the grammar -/

theorem spaces_takeWhile (cs : List Char) : Spaces (cs.takeWhile isSpace) :=
  fun _ hc => (List.mem_takeWhile_imp hc)

/-- A text is spaces and what is left without them. -/
theorem exists_of_skipSpace {cs rest : List Char} (h : skipSpace cs = rest) :
    ∃ spaces, Spaces spaces ∧ cs = spaces ++ rest := by
  subst h
  exact ⟨cs.takeWhile isSpace, spaces_takeWhile cs, List.takeWhile_append_dropWhile.symm⟩

theorem exists_stringText {cs rest : List Char} {pieces : List Piece}
    (h : stringBody cs = some (pieces, rest)) :
    ∃ body, cs = body ++ '"' :: rest ∧ StringText body pieces := by
  fun_induction stringBody cs generalizing pieces with
  | case1 => cases h
  | case2 rest' =>
    obtain ⟨rfl, rfl⟩ := Prod.mk.inj (Option.some.inj h)
    exact ⟨[], rfl, .nil⟩
  | case3 a b c d rest' ih =>
    simp only [Option.bind_eq_bind, Option.bind_eq_some_iff] at h
    obtain ⟨code, hcode, ⟨more, _⟩, hmore, heq⟩ := h
    obtain ⟨rfl, rfl⟩ := Prod.mk.inj (Option.some.inj heq)
    obtain ⟨body, rfl, hbody⟩ := ih hmore
    exact ⟨_, rfl, .code hcode hbody⟩
  | case4 letter rest' _ ih =>
    simp only [Option.bind_eq_bind, Option.bind_eq_some_iff] at h
    obtain ⟨c, hletter, ⟨more, _⟩, hmore, heq⟩ := h
    obtain ⟨rfl, rfl⟩ := Prod.mk.inj (Option.some.inj heq)
    obtain ⟨body, rfl, hbody⟩ := ih hmore
    exact ⟨_, rfl, .escape hletter hbody⟩
  | case5 c rest' hquote _ _ hc => cases h
  | case6 c rest' hquote _ _ hc ih =>
    simp only [Option.bind_eq_bind, Option.bind_eq_some_iff] at h
    obtain ⟨⟨more, _⟩, hmore, heq⟩ := h
    obtain ⟨rfl, rfl⟩ := Prod.mk.inj (Option.some.inj heq)
    obtain ⟨body, rfl, hbody⟩ := ih hmore
    obtain ⟨hcontrol, hbackslash⟩ := not_or.1 hc
    exact ⟨_, rfl, .char hquote hbackslash hcontrol hbody⟩

theorem isDigits_of_span {cs ds rest : List Char} (h : Digits.span cs = (ds, rest)) :
    cs = ds ++ rest ∧ ∀ c ∈ ds, c.isDigit = true := by
  obtain ⟨rfl, rfl⟩ := Prod.mk.inj h
  exact ⟨(Digits.span_append cs).symm, fun _ hc => List.mem_takeWhile_imp hc⟩

theorem isWhole_of_whole? {cs whole rest : List Char} (h : whole? cs = some (whole, rest)) :
    cs = whole ++ rest ∧ IsWhole whole := by
  rw [whole?] at h
  split at h
  case h_1 => cases h
  case h_2 => cases h
  case h_3 digits rest' hne hzero hspan =>
    obtain ⟨rfl, rfl⟩ := Prod.mk.inj (Option.some.inj h)
    obtain ⟨heq, hdigits⟩ := isDigits_of_span hspan
    refine ⟨heq, hdigits, hne, ?_⟩
    intro tail htail
    cases tail with
    | nil => rfl
    | cons c tail => exact (hzero c tail htail).elim

theorem exists_fractionText {cs fraction rest : List Char}
    (h : fraction? cs = some (fraction, rest)) :
    ∃ text, cs = text ++ rest ∧ FractionText text fraction := by
  rw [fraction?.eq_def] at h
  split at h
  case h_2 =>
    obtain ⟨rfl, rfl⟩ := Prod.mk.inj (Option.some.inj h)
    exact ⟨[], rfl, .none⟩
  case h_1 digits =>
    split at h
    case h_1 => cases h
    case h_2 ds rest' hne hspan =>
      obtain ⟨rfl, rfl⟩ := Prod.mk.inj (Option.some.inj h)
      obtain ⟨rfl, hdigits⟩ := isDigits_of_span hspan
      exact ⟨_, rfl, .point ⟨hdigits, hne⟩⟩

theorem exists_signText (cs : List Char) : ∃ text, cs = text ++ (NumberLiteral.spanSign cs).2 ∧
    SignText text (NumberLiteral.spanSign cs).1 := by
  rw [NumberLiteral.spanSign.eq_def]
  split
  · exact ⟨_, rfl, .minus⟩
  · exact ⟨_, rfl, .plus⟩
  · exact ⟨[], rfl, .none⟩

theorem exists_exponentText {cs rest : List Char} {exponent : Option Int}
    (h : exponent? cs = some (exponent, rest)) :
    ∃ text, cs = text ++ rest ∧ ExponentText text exponent := by
  cases cs with
  | nil =>
    obtain ⟨rfl, rfl⟩ := Prod.mk.inj (Option.some.inj h)
    exact ⟨[], rfl, .none⟩
  | cons e tail =>
    obtain ⟨sign, hsign, hsignText⟩ := exists_signText tail
    rw [exponent?] at h
    split at h
    case isFalse =>
      obtain ⟨rfl, rfl⟩ := Prod.mk.inj (Option.some.inj h)
      exact ⟨[], rfl, .none⟩
    case isTrue he =>
      simp only at h
      split at h
      case h_1 => cases h
      case h_2 ds rest' hne hspan =>
        obtain ⟨rfl, rfl⟩ := Prod.mk.inj (Option.some.inj h)
        obtain ⟨heq, hdigits⟩ := isDigits_of_span hspan
        refine ⟨e :: (sign ++ ds), ?_, .mark he hsignText ⟨hdigits, hne⟩⟩
        rw [hsign, heq]
        simp

theorem exists_numberText {cs rest : List Char} {t : Tree}
    (h : number? cs = some (t, rest)) : ∃ text, cs = text ++ rest ∧ NumberText text t := by
  obtain ⟨negative, unsigned, rfl, hunsigned⟩ := exists_number?_eq_unsigned? cs
  simp only [hunsigned, unsigned?, Option.bind_eq_bind, Option.bind_eq_some_iff] at h
  obtain ⟨⟨whole, _⟩, hwhole, ⟨fraction, _⟩, hfraction, ⟨exponent, tail⟩, hexponent, h⟩ := h
  obtain ⟨rfl, hwholeText⟩ := isWhole_of_whole? hwhole
  obtain ⟨cs, rfl, hfractionText⟩ := exists_fractionText hfraction
  obtain ⟨es, rfl, hexponentText⟩ := exists_exponentText hexponent
  have htree : (numberTree negative whole fraction exponent, tail) = (t, rest) := by
    rw [numberTree]
    split at h
    case isTrue hinteger =>
      rw [if_pos hinteger]
      exact Option.some.inj h
    case isFalse hinteger =>
      rw [if_neg hinteger]
      exact Option.some.inj h
  obtain ⟨rfl, rfl⟩ := Prod.mk.inj htree
  exact ⟨sign negative ++ (whole ++ (cs ++ es)), by simp,
    .mk negative hwholeText hfractionText hexponentText⟩

/-- What is read in some steps is a text of the grammar, up to the rest that is left. -/
structure Grammatical (fuel : Nat) : Prop where
  value : ∀ {cs t rest}, readValue fuel cs = some (t, rest) →
    ∃ spaces text, Spaces spaces ∧ cs = spaces ++ (text ++ rest) ∧ ValueText text t
  items : ∀ {cs ts rest}, readItems fuel cs = some (ts, rest) →
    ∃ text, cs = text ++ ']' :: rest ∧ ItemsText text ts
  members : ∀ {cs ms rest}, readMembers fuel cs = some (ms, rest) →
    ∃ text, cs = text ++ '\x7d' :: rest ∧ EntriesText text ms

namespace Grammatical

variable {fuel : Nat} {cs rest : List Char}

/-- A value, by its first character. -/
theorem value_succ (h : Grammatical fuel) {t : Tree}
    (hread : readValue (fuel + 1) cs = some (t, rest)) :
    ∃ spaces text, Spaces spaces ∧ cs = spaces ++ (text ++ rest) ∧ ValueText text t := by
  obtain ⟨spaces, hspaces, hcs⟩ := exists_of_skipSpace (Eq.refl (skipSpace cs))
  suffices htext : ∃ text, skipSpace cs = text ++ rest ∧ ValueText text t by
    obtain ⟨text, heq, htext⟩ := htext
    exact ⟨spaces, text, hspaces, heq ▸ hcs, htext⟩
  rw [readValue] at hread
  split at hread
  case h_1 heq =>
    obtain ⟨rfl, rfl⟩ := Prod.mk.inj (Option.some.inj hread)
    exact ⟨_, heq, .null⟩
  case h_2 heq =>
    obtain ⟨rfl, rfl⟩ := Prod.mk.inj (Option.some.inj hread)
    exact ⟨_, heq, .bool true⟩
  case h_3 heq =>
    obtain ⟨rfl, rfl⟩ := Prod.mk.inj (Option.some.inj hread)
    exact ⟨_, heq, .bool false⟩
  case h_4 heq =>
    simp only [Option.bind_eq_bind, Option.bind_eq_some_iff] at hread
    obtain ⟨⟨pieces, _⟩, hpieces, hread⟩ := hread
    obtain ⟨rfl, rfl⟩ := Prod.mk.inj (Option.some.inj hread)
    obtain ⟨text, rfl, htext⟩ := exists_stringText hpieces
    exact ⟨_, by simp [heq], .string htext⟩
  case h_5 heq =>
    split at hread
    case h_1 hclosing =>
      obtain ⟨rfl, rfl⟩ := Prod.mk.inj (Option.some.inj hread)
      obtain ⟨inner, hinner, rfl⟩ := exists_of_skipSpace hclosing
      exact ⟨_, by simp [heq], .nilList hinner⟩
    case h_2 =>
      simp only [Option.bind_eq_bind, Option.bind_eq_some_iff] at hread
      obtain ⟨⟨ts, _⟩, hts, hread⟩ := hread
      obtain ⟨rfl, rfl⟩ := Prod.mk.inj (Option.some.inj hread)
      obtain ⟨text, rfl, htext⟩ := h.items hts
      exact ⟨_, by simp [heq], .list htext⟩
  case h_6 heq =>
    split at hread
    case h_1 hclosing =>
      obtain ⟨rfl, rfl⟩ := Prod.mk.inj (Option.some.inj hread)
      obtain ⟨inner, hinner, rfl⟩ := exists_of_skipSpace hclosing
      exact ⟨_, by simp [heq], .nilTable hinner⟩
    case h_2 =>
      simp only [Option.bind_eq_bind, Option.bind_eq_some_iff] at hread
      obtain ⟨⟨ms, _⟩, hms, hread⟩ := hread
      obtain ⟨rfl, rfl⟩ := Prod.mk.inj (Option.some.inj hread)
      obtain ⟨text, rfl, htext⟩ := h.members hms
      exact ⟨_, by simp [heq], .table htext⟩
  case h_7 =>
    obtain ⟨text, heq, htext⟩ := exists_numberText hread
    exact ⟨text, heq, .number htext⟩

theorem items_succ (h : Grammatical fuel) {ts : List Tree}
    (hread : readItems (fuel + 1) cs = some (ts, rest)) :
    ∃ text, cs = text ++ ']' :: rest ∧ ItemsText text ts := by
  simp only [readItems, Option.bind_eq_bind, Option.bind_eq_some_iff] at hread
  obtain ⟨⟨t, tail⟩, ht, hread⟩ := hread
  obtain ⟨before, text, hbefore, rfl, htext⟩ := h.value ht
  split at hread
  case h_1 heq =>
    obtain ⟨after, hafter, rfl⟩ := exists_of_skipSpace heq
    simp only [Option.bind_eq_some_iff] at hread
    obtain ⟨⟨items, _⟩, hitems, hread⟩ := hread
    obtain ⟨rfl, rfl⟩ := Prod.mk.inj (Option.some.inj hread)
    obtain ⟨more, rfl, hmore⟩ := h.items hitems
    exact ⟨_, by simp, .cons hbefore htext hafter hmore⟩
  case h_2 heq =>
    obtain ⟨after, hafter, rfl⟩ := exists_of_skipSpace heq
    obtain ⟨rfl, rfl⟩ := Prod.mk.inj (Option.some.inj hread)
    exact ⟨_, by simp, .single hbefore htext hafter⟩
  case h_3 => cases hread

theorem exists_of_afterColon? (h : afterColon? cs = some rest) :
    ∃ spaces, Spaces spaces ∧ cs = spaces ++ ':' :: rest := by
  rw [afterColon?] at h
  split at h
  case h_1 heq =>
    obtain rfl := Option.some.inj h
    exact exists_of_skipSpace heq
  case h_2 => cases h

theorem members_succ (h : Grammatical fuel) {ms : List (Option String × Tree)}
    (hread : readMembers (fuel + 1) cs = some (ms, rest)) :
    ∃ text, cs = text ++ '\x7d' :: rest ∧ EntriesText text ms := by
  rw [readMembers] at hread
  split at hread
  case h_2 => cases hread
  case h_1 heq =>
    obtain ⟨before, hbefore, rfl⟩ := exists_of_skipSpace heq
    simp only [Option.bind_eq_bind, Option.bind_eq_some_iff] at hread
    obtain ⟨⟨pieces, _⟩, hpieces, _, hcolon, ⟨t, tail⟩, ht, hread⟩ := hread
    obtain ⟨body, rfl, hbody⟩ := exists_stringText hpieces
    obtain ⟨s₁, hs₁, rfl⟩ := exists_of_afterColon? hcolon
    obtain ⟨s₂, text, hs₂, rfl, htext⟩ := h.value ht
    have hentry := EntryText.mk hbody hs₁ hs₂ htext
    split at hread
    case h_1 heq =>
      obtain ⟨after, hafter, rfl⟩ := exists_of_skipSpace heq
      simp only [Option.bind_eq_some_iff] at hread
      obtain ⟨⟨members, _⟩, hmembers, hread⟩ := hread
      obtain ⟨rfl, rfl⟩ := Prod.mk.inj (Option.some.inj hread)
      obtain ⟨more, rfl, hmore⟩ := h.members hmembers
      exact ⟨_, by simp, .cons hbefore hentry hafter hmore⟩
    case h_2 heq =>
      obtain ⟨after, hafter, rfl⟩ := exists_of_skipSpace heq
      obtain ⟨rfl, rfl⟩ := Prod.mk.inj (Option.some.inj hread)
      exact ⟨_, by simp, .single hbefore hentry hafter⟩
    case h_3 => cases hread

end Grammatical

theorem grammatical (fuel : Nat) : Grammatical fuel := by
  induction fuel with
  | zero => constructor <;> simp [readValue, readItems, readMembers]
  | succ fuel ih => exact ⟨ih.value_succ, ih.items_succ, ih.members_succ⟩

/-- The reader reads the texts of the grammar, and no others. -/
theorem read?_eq_some_iff {text : String} {t : Tree} :
    read? text = some t ↔ Document text.toList t := by
  constructor
  · intro h
    simp only [read?, Option.bind_eq_bind, Option.bind_eq_some_iff] at h
    obtain ⟨⟨t', rest⟩, hread, h⟩ := h
    split at h
    case isTrue hrest =>
      obtain rfl := Option.some.inj h
      obtain ⟨before, cs, hbefore, htext, hcs⟩ := (grammatical _).value hread
      obtain ⟨after, hafter, rfl⟩ := exists_of_skipSpace hrest
      rw [htext, List.append_nil]
      exact .mk hbefore hcs hafter
    case isFalse => cases h
  · exact Document.read?

end SqlSelect.Json
