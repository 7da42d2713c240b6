/-!
# Blank characters

The characters that count as white space when a date-time is read: those with
the Unicode property `White_Space`.
-/

namespace SqlSelect

/-- A character has the Unicode property `White_Space`. -/
def isBlank (c : Char) : Bool :=
  let n := c.toNat
  (9 ≤ n && n ≤ 13) || n = 0x20 || n = 0x85 || n = 0xA0 || n = 0x1680 ||
    (0x2000 ≤ n && n ≤ 0x200A) || n = 0x2028 || n = 0x2029 || n = 0x202F ||
    n = 0x205F || n = 0x3000

/-- A text without the blanks at its head. -/
def skipBlanks (cs : List Char) : List Char := cs.dropWhile isBlank

end SqlSelect
