import SqlSelect.Document.Tree
import SqlSelect.Number.Literal

/-!
# Reading JSON

A strict reader: one value, with spaces around it and between its tokens, and
nothing else. It keeps the order and the repetitions of members.

## Main definitions

* `Json.stringBody` and `Json.assemble`: strings with their escapes;
* `Json.number?`: numbers;
* `Json.readValue` and `Json.read?`.

## Design notes

An escape can name half of a character that takes two of them. A string whose
halves do not pair up is well formed but `Tree.unusable`, and so is an object with
such a key and a number beyond the largest double: they are errors only where they
are needed. Recursion is on a number of steps that every text outlasts.
-/

namespace SqlSelect

namespace Json

/-- Spaces between tokens. -/
def isSpace (c : Char) : Bool := c == ' ' || c == '\t' || c == '\n' || c == '\r'

/-- A text without the spaces at its head. -/
def skipSpace (cs : List Char) : List Char := cs.dropWhile isSpace

/-! ### Strings -/

/-- A part of a string: a character, or an escaped half of one. -/
inductive Piece where
  | char (c : Char)
  | half (code : Nat)

def hexDigit? (c : Char) : Option Nat :=
  if c.isDigit then some (c.toNat - '0'.toNat)
  else if 'a' ≤ c ∧ c ≤ 'f' then some (c.toNat - 'a'.toNat + 10)
  else if 'A' ≤ c ∧ c ≤ 'F' then some (c.toNat - 'A'.toNat + 10)
  else none

def hexValue? (cs : List Char) : Option Nat :=
  cs.foldlM (fun n c => (hexDigit? c).map (16 * n + ·)) 0

def Piece.ofCode (code : Nat) : Piece :=
  if 0xD800 ≤ code ∧ code ≤ 0xDFFF then .half code else .char (Char.ofNat code)

/-- The character that a letter after a backslash stands for. -/
def unescape? : Char → Option Char
  | '"' => some '"'
  | '\\' => some '\\'
  | '/' => some '/'
  | 'b' => some '\x08'
  | 'f' => some '\x0c'
  | 'n' => some '\n'
  | 'r' => some '\r'
  | 't' => some '\t'
  | _ => none

/-- The pieces of a string up to its closing quote, and the text after it. -/
def stringBody : List Char → Option (List Piece × List Char)
  | [] => none
  | '"' :: rest => some ([], rest)
  | '\\' :: 'u' :: a :: b :: c :: d :: rest => do
    let code ← hexValue? [a, b, c, d]
    let (pieces, rest) ← stringBody rest
    some (.ofCode code :: pieces, rest)
  | '\\' :: c :: rest => do
    let c ← unescape? c
    let (pieces, rest) ← stringBody rest
    some (.char c :: pieces, rest)
  | c :: rest =>
    if c.toNat < 0x20 ∨ c = '\\' then none
    else do
      let (pieces, rest) ← stringBody rest
      some (.char c :: pieces, rest)

/-- The characters of a string, where every first half is followed by a second
    one. -/
def assemble : List Piece → Option (List Char)
  | [] => some []
  | .char c :: rest => (assemble rest).map (c :: ·)
  | .half first :: .half second :: rest =>
    if first < 0xDC00 ∧ 0xDC00 ≤ second then
      -- Two halves of 10 bits each.
      let c := Char.ofNat (0x10000 + (first - 0xD800) * 0x400 + (second - 0xDC00))
      (assemble rest).map (c :: ·)
    else none
  -- A half by itself is no character.
  | .half _ :: _ => none

def string? (pieces : List Piece) : Option String := (assemble pieces).map String.ofList

/-! ### Numbers -/

/-- The digits before the point at the head of a text: no zero stands before
    another digit. -/
def whole? (cs : List Char) : Option (List Char × List Char) :=
  match Digits.span cs with
  | ([], _) => none
  | ('0' :: _ :: _, _) => none
  | (digits, rest) => some (digits, rest)

/-- A point with digits at the head of a text, or nothing. -/
def fraction? : List Char → Option (List Char × List Char)
  | '.' :: rest =>
    match Digits.span rest with
    | ([], _) => none
    | (digits, rest) => some (digits, rest)
  | cs => some ([], cs)

/-- An exponent at the head of a text, or nothing. -/
def exponent? (cs : List Char) : Option (Option Int × List Char) :=
  match cs with
  | c :: rest =>
    if c = 'e' ∨ c = 'E' then
      let (negative, rest) := NumberLiteral.spanSign rest
      match Digits.span rest with
      | ([], _) => none
      | (digits, rest) =>
        let n : Int := Digits.value digits
        some (some (if negative then -n else n), rest)
    else some (none, cs)
  | [] => some (none, [])

/-- A double as a tree; there is none for an infinity. -/
def floatTree (x : Double) : Tree := if x.isFinite then .float x else .unusable

/-- The number of a literal without fraction and exponent. It is an integer if it
    fits into 64 bits, with or without a sign, and is not a negative zero. -/
def integerTree (l : NumberLiteral) : Tree :=
  let n := l.digits
  if l.negative then
    if n ≠ 0 ∧ n ≤ 9223372036854775808 then .int (-n) else floatTree l.toDouble
  else
    if n < UInt64.size then .int n else floatTree l.toDouble

/-- A number at the head of a text, and the text after it. -/
def number? (cs : List Char) : Option (Tree × List Char) := do
  let (negative, unsigned) := match cs with
    | '-' :: rest => (true, rest)
    | _ => (false, cs)
  let (whole, rest) ← whole? unsigned
  let (fraction, rest) ← fraction? rest
  let (exponent, rest) ← exponent? rest
  let literal : NumberLiteral := ⟨negative, whole, fraction, exponent.getD 0⟩
  -- Only a literal without point and exponent can be an integer.
  if fraction = [] ∧ exponent = none then some (integerTree literal, rest)
  else some (floatTree literal.toDouble, rest)

/-! ### Values -/

/-- The table of members, which needs every key. -/
def tableTree (members : List (Option String × Tree)) : Tree :=
  match members.mapM fun (key, t) => key.map (·, t) with
  | some members => .table members
  | none => .unusable

/-- The text after a key's colon. -/
def afterColon? (cs : List Char) : Option (List Char) :=
  match skipSpace cs with
  | ':' :: rest => some rest
  | _ => none

mutual

/-- A value at the head of a text, after spaces, and the text after it. -/
def readValue : Nat → List Char → Option (Tree × List Char)
  | 0, _ => none
  | fuel + 1, cs =>
    match skipSpace cs with
    | 'n' :: 'u' :: 'l' :: 'l' :: rest => some (.null, rest)
    | 't' :: 'r' :: 'u' :: 'e' :: rest => some (.bool true, rest)
    | 'f' :: 'a' :: 'l' :: 's' :: 'e' :: rest => some (.bool false, rest)
    | '"' :: rest => do
      let (pieces, rest) ← stringBody rest
      some ((string? pieces).elim .unusable .text, rest)
    | '[' :: rest =>
      match skipSpace rest with
      | ']' :: rest => some (.list [], rest)
      | _ => do
        let (items, rest) ← readItems fuel rest
        some (.list items, rest)
    | '\x7b' :: rest =>
      match skipSpace rest with
      | '\x7d' :: rest => some (.table [], rest)
      | _ => do
        let (members, rest) ← readMembers fuel rest
        some (tableTree members, rest)
    | cs => number? cs

/-- The items of a list up to its closing bracket, at least one. -/
def readItems : Nat → List Char → Option (List Tree × List Char)
  | 0, _ => none
  | fuel + 1, cs => do
    let (t, rest) ← readValue fuel cs
    match skipSpace rest with
    | ',' :: rest => do
      let (items, rest) ← readItems fuel rest
      some (t :: items, rest)
    | ']' :: rest => some ([t], rest)
    | _ => none

/-- The members of a table up to its closing brace, at least one. -/
def readMembers : Nat → List Char → Option (List (Option String × Tree) × List Char)
  | 0, _ => none
  | fuel + 1, cs =>
    match skipSpace cs with
    | '"' :: rest => do
      let (pieces, rest) ← stringBody rest
      let (t, rest) ← readValue fuel (← afterColon? rest)
      match skipSpace rest with
      | ',' :: rest => do
        let (members, rest) ← readMembers fuel rest
        some ((string? pieces, t) :: members, rest)
      | '\x7d' :: rest => some ([(string? pieces, t)], rest)
      | _ => none
    | _ => none

end

/-- Reads a text that is one JSON value. -/
def read? (text : String) : Option Tree := do
  let cs := text.toList
  let (t, rest) ← readValue (2 * cs.length + 2) cs
  if skipSpace rest = [] then some t else none

end Json

end SqlSelect
