import SqlSelect.Number.Shortest

/-!
# Layout of floating-point text

How the digits of a double are set out. A `FloatLayout` holds the choices of one
format; `Double.text` writes a number by them.

## Main definitions

* `FloatLayout`: where positional notation ends, what marks a whole number, and
  how an exponent and the special values are written;
* `Double.text`: a double in a layout.
-/

namespace SqlSelect

/-- The choices of a format for floating-point numbers. -/
structure FloatLayout where
  /-- How a tie between two shortest decimals is settled. -/
  tie : TieRule
  /-- The powers of ten, of the leading digit, that are written without an
      exponent; every power if there is no range. -/
  positional : Option (Int × Int)
  /-- What follows a whole number in positional notation. -/
  wholeMark : List Char
  /-- The sign of a positive exponent. -/
  plusSign : List Char
  /-- The text of a NaN. -/
  nan : List Char
  /-- The text of an infinity, without its sign; the text of both infinities is
      that of a NaN if there is none. -/
  infinity : Option (List Char)

namespace FloatLayout

/-- The digits `ds` with the point after the first `point` of them: zeros fill a
    point before or behind the digits. -/
def positionalText (layout : FloatLayout) (ds : List Char) (point : Int) : List Char :=
  if point ≤ 0 then
    ['0', '.'] ++ List.replicate (-point).toNat '0' ++ ds
  else
    let n := point.toNat
    if ds.length ≤ n then
      ds ++ List.replicate (n - ds.length) '0' ++ layout.wholeMark
    else
      ds.take n ++ ['.'] ++ ds.drop n

/-- The digits `ds` with the point after the first of them, and the exponent
    `power`. -/
def exponentText (layout : FloatLayout) (ds : List Char) (power : Int) : List Char :=
  let mantissa := match ds with
    | d :: e :: rest => d :: '.' :: e :: rest
    | _ => ds
  mantissa ++ ['e'] ++ (if 0 ≤ power then layout.plusSign else []) ++ Digits.ofInt power

/-- The positive number `s` in a layout. -/
def scientificText (layout : FloatLayout) (s : Scientific) : List Char :=
  let ds := Digits.ofNat s.digits
  let power := s.exponent + ds.length - 1
  match layout.positional with
  | none => layout.positionalText ds (power + 1)
  | some (least, greatest) =>
    if s.digits = 0 ∨ (least ≤ power ∧ power ≤ greatest) then
      layout.positionalText ds (power + 1)
    else
      layout.exponentText ds power

end FloatLayout

/-- The text of a double in a layout. -/
def Double.text (layout : FloatLayout) (d : Double) : List Char :=
  let sign : List Char := if d.isNegative then ['-'] else []
  match d with
  | .nan => layout.nan
  | .infinite _ =>
    match layout.infinity with
    | some word => sign ++ word
    | none => layout.nan
  | .finite .. => sign ++ layout.scientificText (d.shortest layout.tie)

end SqlSelect
