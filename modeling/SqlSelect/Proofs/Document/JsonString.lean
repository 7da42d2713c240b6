import Mathlib.Data.List.Basic
import SqlSelect.Document.Json.Printer
import SqlSelect.Document.Json.Reader

/-!
# Strings in JSON texts

A quoted string is read back character by character: every escape that is written
stands for one character, and the closing quote is the first quote without a
backslash.

## Main statements

* `Json.stringBody_escaped`: one character;
* `Json.stringBody_flatMap`: a whole string, with the text after it.
-/

namespace SqlSelect.Json

/-- A digit below 16 is read as its value. -/
theorem hexDigit?_digitChar {n : Nat} (hn : n < 16) : hexDigit? (Nat.digitChar n) = some n := by
  have hall : ∀ n < 16, hexDigit? (Nat.digitChar n) = some n := by decide
  exact hall n hn

/-- The code of a control character is read as the character. -/
theorem hexValue?_control {c : Char} (hc : c.toNat < 0x20) :
    hexValue? ['0', '0', Nat.digitChar (c.toNat / 16), Nat.digitChar (c.toNat % 16)] =
      some c.toNat := by
  have hhigh : hexDigit? (Nat.digitChar (c.toNat / 16)) = some (c.toNat / 16) :=
    hexDigit?_digitChar (by omega)
  have hlow : hexDigit? (Nat.digitChar (c.toNat % 16)) = some (c.toNat % 16) :=
    hexDigit?_digitChar (by omega)
  have hzero : hexDigit? '0' = some 0 := rfl
  simp only [hexValue?, List.foldlM_cons, List.foldlM_nil, hzero, hhigh, hlow, Option.map_some,
    Option.bind_eq_bind, Option.bind_some, Option.pure_def]
  congr 1
  omega

theorem ofCode_control {c : Char} (hc : c.toNat < 0x20) : Piece.ofCode c.toNat = .char c := by
  rw [Piece.ofCode, if_neg (by omega), Char.ofNat_toNat]

/-- What a string is read as if one more character stands in front of it. -/
def withChar (c : Char) (body : Option (List Piece × List Char)) :
    Option (List Piece × List Char) :=
  body.map fun (pieces, rest) => (.char c :: pieces, rest)

section

variable {c : Char} (rest : List Char)

theorem stringBody_letter {letter : Char} (hletter : letter ≠ 'u')
    (h : unescape? letter = some c) :
    stringBody ('\\' :: letter :: rest) = withChar c (stringBody rest) := by
  rw [stringBody, h]
  · cases stringBody rest <;> rfl
  · intro _ _ _ _ _ hu
    exact absurd hu hletter

theorem stringBody_control (hc : c.toNat < 0x20) :
    stringBody ('\\' :: 'u' :: '0' :: '0' :: Nat.digitChar (c.toNat / 16) ::
      Nat.digitChar (c.toNat % 16) :: rest) = withChar c (stringBody rest) := by
  rw [stringBody, hexValue?_control hc, Option.bind_eq_bind, Option.bind_some,
    ofCode_control hc]
  cases stringBody rest <;> rfl

theorem stringBody_plain (hquote : c ≠ '"') (hbackslash : c ≠ '\\')
    (hc : ¬c.toNat < 0x20) :
    stringBody (c :: rest) = withChar c (stringBody rest) := by
  rw [stringBody, if_neg (by simp [hc, hbackslash])]
  · cases stringBody rest <;> rfl
  · exact hquote
  · intro _ _ _ _ _ h
    exact absurd h hbackslash
  · intro _ _ h
    exact absurd h hbackslash

/-- A printed character is read back as itself. -/
theorem stringBody_escaped (c : Char) :
    stringBody (escaped c ++ rest) = withChar c (stringBody rest) := by
  rw [escaped.eq_def]
  split
  case h_8 hquote hbackslash _ _ _ _ _ =>
    split
    case isTrue hcontrol => exact stringBody_control rest hcontrol
    case isFalse hc => exact stringBody_plain rest hquote hbackslash hc
  all_goals exact stringBody_letter rest (by decide) rfl

end

/-- A printed string is read back up to its closing quote. -/
theorem stringBody_flatMap (cs rest : List Char) :
    stringBody (cs.flatMap escaped ++ '"' :: rest) = some (cs.map .char, rest) := by
  induction cs with
  | nil => rw [List.flatMap_nil, List.nil_append, stringBody, List.map_nil]
  | cons c cs ih =>
    rw [List.flatMap_cons, List.append_assoc, stringBody_escaped, ih]
    rfl

/-- Characters without halves are the string they make. -/
theorem string?_chars (s : String) : string? (s.toList.map .char) = some s := by
  have hchars : ∀ cs : List Char, assemble (cs.map .char) = some cs := by
    intro cs
    induction cs with
    | nil => rfl
    | cons c cs ih =>
      rw [List.map_cons, assemble, ih]
      rfl
  rw [string?, hchars, Option.map_some, String.ofList_toList]

end SqlSelect.Json
