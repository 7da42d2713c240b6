import SqlSelect.Document.Tree

/-!
# Printing JSON

One traversal prints a tree in any style; a style says what stands between tokens.

## Main definitions

* `JsonStyle` and `JsonStyle.pretty`;
* `Json.quoted`: a string with its escapes;
* `Json.print`.
-/

namespace SqlSelect

/-- What stands between the tokens of a JSON text. -/
structure JsonStyle where
  /-- The break before an item at a nesting level. -/
  lineBreak : Nat → List Char
  /-- What follows a colon. -/
  afterColon : List Char

/-- One item a line, indented by two blanks a level. -/
def JsonStyle.pretty : JsonStyle :=
  ⟨fun level => '\n' :: List.replicate (2 * level) ' ', [' ']⟩

namespace Json

/-- Numbers have an exponent outside `10 ^ -5` to `10 ^ 16`, with a sign in both
    directions. Whole numbers without one end in `.0`. What is not a number is
    null. -/
def floatLayout : FloatLayout where
  tie := .even
  positional := some (-5, 15)
  wholeMark := ['.', '0']
  plusSign := ['+']
  nan := ['n', 'u', 'l', 'l']
  infinity := none

def escaped (c : Char) : List Char :=
  match c with
  | '"' => ['\\', '"']
  | '\\' => ['\\', '\\']
  | '\x08' => ['\\', 'b']
  | '\x0c' => ['\\', 'f']
  | '\n' => ['\\', 'n']
  | '\r' => ['\\', 'r']
  | '\t' => ['\\', 't']
  | c =>
    if c.toNat < 0x20 then
      ['\\', 'u', '0', '0', Nat.digitChar (c.toNat / 16), Nat.digitChar (c.toNat % 16)]
    else [c]

def quoted (s : String) : List Char :=
  '"' :: s.toList.flatMap escaped ++ ['"']

/-- Items in brackets, each on its own line; the brackets meet if there are none. -/
def bracketed (style : JsonStyle) (level : Nat) (opening closing : Char)
    (items : List (List Char)) : List Char :=
  if items = [] then [opening, closing]
  else
    let between := ',' :: style.lineBreak (level + 1)
    opening :: style.lineBreak (level + 1) ++ List.intercalate between items ++
      style.lineBreak level ++ [closing]

mutual

/-- Prints a tree that stands at a nesting level. -/
def printAt (style : JsonStyle) (level : Nat) : Tree → List Char
  | .null | .unusable => ['n', 'u', 'l', 'l']
  | .bool b => if b then ['t', 'r', 'u', 'e'] else ['f', 'a', 'l', 's', 'e']
  | .int n => Digits.ofInt n
  | .float x => x.text floatLayout
  | .text s => quoted s
  | .list items => bracketed style level '[' ']' (printItems style (level + 1) items)
  | .table members =>
    bracketed style level '\x7b' '\x7d' (printMembers style (level + 1) members)

def printItems (style : JsonStyle) (level : Nat) : List Tree → List (List Char)
  | [] => []
  | t :: rest => printAt style level t :: printItems style level rest

def printMembers (style : JsonStyle) (level : Nat) : List (String × Tree) → List (List Char)
  | [] => []
  | (name, t) :: rest =>
    (quoted name ++ [':'] ++ style.afterColon ++ printAt style level t) ::
      printMembers style level rest

end

def print (style : JsonStyle) (t : Tree) : String := String.ofList (printAt style 0 t)

end Json

end SqlSelect
