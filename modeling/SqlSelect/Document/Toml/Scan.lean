import SqlSelect.Text.Digits

/-!
# Scanning TOML

Blanks, comments, line ends, strings and keys of TOML texts. Every scanner takes
the text from where it stands and returns the text after what it has read.

## Main definitions

* `Toml.skipSpace`, `Toml.skipTrivia` and `Toml.lineEnd?`;
* `Toml.string?`: the four kinds of strings;
* `Toml.key?`: dotted keys.
-/

namespace SqlSelect

namespace Toml

/-! ### Space between tokens -/

/-- Blanks within a line. -/
def isSpace (c : Char) : Bool := c == ' ' || c == '\t'

/-- A text without the blanks at its head. -/
def skipSpace (cs : List Char) : List Char := cs.dropWhile isSpace

/-- A character that may stand unescaped in a comment or in a string: no control
    character but the tab. -/
def isPlain (c : Char) : Bool := c == '\t' || (0x20 ≤ c.toNat && c.toNat ≠ 0x7F)

/-- A line break at the head of a text. -/
def newline? : List Char → Option (List Char)
  | '\n' :: rest => some rest
  | '\r' :: '\n' :: rest => some rest
  | _ => none

/-- A text without blanks, line breaks and comments at its head. `inComment` says
    that the text starts inside a comment. -/
def skipTrivia (inComment : Bool) : List Char → List Char
  | [] => []
  | '\n' :: rest => skipTrivia false rest
  | '\r' :: '\n' :: rest => skipTrivia false rest
  | c :: rest =>
    if inComment then
      if isPlain c then skipTrivia true rest else c :: rest
    else if isSpace c then skipTrivia false rest
    else if c = '#' then skipTrivia true rest
    else c :: rest

/-- The end of a line: blanks, a comment, and a line break or the end of the
    text. -/
def lineEnd? (cs : List Char) : Option (List Char) :=
  let rest := match skipSpace cs with
    | '#' :: comment => comment.dropWhile isPlain
    | rest => rest
  if rest = [] then some [] else newline? rest

/-! ### Strings -/

def hexDigit? (c : Char) : Option Nat :=
  if c.isDigit then some (c.toNat - '0'.toNat)
  else if 'a' ≤ c ∧ c ≤ 'f' then some (c.toNat - 'a'.toNat + 10)
  else if 'A' ≤ c ∧ c ≤ 'F' then some (c.toNat - 'A'.toNat + 10)
  else none

/-- The character of a code that is written in `width` hexadecimal digits. -/
def codePoint? (width : Nat) (cs : List Char) : Option (Char × List Char) := do
  let digits := cs.take width
  let code ← digits.foldlM (fun n c => (hexDigit? c).map (16 * n + ·)) 0
  if digits.length = width ∧ code.isValidChar then
    some (Char.ofNat code, cs.drop width)
  else none

/-- The character that the text after a backslash stands for. -/
def escape? : List Char → Option (Char × List Char)
  | 'b' :: rest => some ('\x08', rest)
  | 't' :: rest => some ('\t', rest)
  | 'n' :: rest => some ('\n', rest)
  | 'f' :: rest => some ('\x0c', rest)
  | 'r' :: rest => some ('\r', rest)
  | '"' :: rest => some ('"', rest)
  | '\\' :: rest => some ('\\', rest)
  | 'u' :: rest => codePoint? 4 rest
  | 'U' :: rest => codePoint? 8 rest
  | _ => none

/-- Adds a character to what is read after it. -/
def consChar (c : Char) : Option (List Char × List Char) → Option (List Char × List Char) :=
  Option.map fun (cs, rest) => (c :: cs, rest)

/-- A string with escapes up to its closing quote. -/
def basicBody : Nat → List Char → Option (List Char × List Char)
  | 0, _ => none
  | fuel + 1, cs =>
    match cs with
    | [] => none
    | '"' :: rest => some ([], rest)
    | '\\' :: rest => do
      let (c, rest) ← escape? rest
      consChar c (basicBody fuel rest)
    | c :: rest => if isPlain c then consChar c (basicBody fuel rest) else none

/-- A string without escapes up to its closing quote. -/
def literalBody : List Char → Option (List Char × List Char)
  | [] => none
  | c :: rest =>
    if c = '\'' then some ([], rest)
    else if isPlain c then consChar c (literalBody rest)
    else none

/-- The end of a string over several lines, after three quotes: up to two more of
    them belong to the string. -/
def extraQuotes (quote : Char) : List Char → List Char × List Char
  | a :: b :: rest =>
    if a = quote ∧ b = quote then ([a, b], rest)
    else if a = quote then ([a], b :: rest)
    else ([], a :: b :: rest)
  | [a] => if a = quote then ([a], []) else ([], [a])
  | [] => ([], [])

/-- A text without the blanks and line breaks at its head. -/
def skipLines : List Char → List Char
  | '\r' :: '\n' :: rest => skipLines rest
  | c :: rest => if isSpace c || c == '\n' then skipLines rest else c :: rest
  | [] => []

/-- A string over several lines up to its closing quotes. In one with escapes, a
    backslash at the end of a line takes away the line break and all blanks and
    line breaks after it. Line breaks are read as line feeds. -/
def multilineBody (quote : Char) : Nat → List Char → Option (List Char × List Char)
  | 0, _ => none
  | fuel + 1, cs =>
    match cs with
    | [] => none
    | '\n' :: rest => consChar '\n' (multilineBody quote fuel rest)
    | '\r' :: '\n' :: rest => consChar '\n' (multilineBody quote fuel rest)
    | c :: rest =>
      if c = quote ∧ rest.take 2 = [quote, quote] then
        some (extraQuotes quote (rest.drop 2))
      else if c = '\\' ∧ quote = '"' then
        match newline? (skipSpace rest) with
        | some rest => multilineBody quote fuel (skipLines rest)
        | none => do
          let (c, rest) ← escape? rest
          consChar c (multilineBody quote fuel rest)
      else if isPlain c then consChar c (multilineBody quote fuel rest)
      else none

/-- A text without the line break at its head. -/
def skipNewline (cs : List Char) : List Char := (newline? cs).getD cs

def lineString? : List Char → Option (String × List Char)
  | '"' :: rest => (basicBody (rest.length + 1) rest).map fun (cs, rest) => (.ofList cs, rest)
  | '\'' :: rest => (literalBody rest).map fun (cs, rest) => (.ofList cs, rest)
  | _ => none

/-- A string of any kind. The line break right after three opening quotes does not
    belong to it. -/
def string? : List Char → Option (String × List Char)
  | a :: b :: c :: rest =>
    if (a = '"' ∨ a = '\'') ∧ b = a ∧ c = a then
      (multilineBody a (rest.length + 1) (skipNewline rest)).map
        fun (cs, rest) => (.ofList cs, rest)
    else lineString? (a :: b :: c :: rest)
  | cs => lineString? cs

/-! ### Keys -/

def isKeyChar (c : Char) : Bool := c.isAlphanum || c == '-' || c == '_'

def keyPart? (cs : List Char) : Option (String × List Char) :=
  match cs.takeWhile isKeyChar with
  | [] => lineString? cs
  | name => some (.ofList name, cs.dropWhile isKeyChar)

/-- The parts of a dotted key, with blanks around each. -/
def keyParts? : Nat → List Char → Option (List String × List Char)
  | 0, _ => none
  | fuel + 1, cs => do
    let (part, rest) ← keyPart? (skipSpace cs)
    match skipSpace rest with
    | '.' :: rest => do
      let (parts, rest) ← keyParts? fuel rest
      some (part :: parts, rest)
    | rest => some ([part], rest)

/-- The number of tables that may nest inside each other by way of one key or one
    value. -/
def nestingLimit : Nat := 79

/-- A dotted key at the head of a text, and the text after it. -/
def key? (cs : List Char) : Option (List String × List Char) := do
  let (parts, rest) ← keyParts? (cs.length + 1) cs
  if parts.length ≤ nestingLimit then some (parts, rest) else none

end Toml

end SqlSelect
