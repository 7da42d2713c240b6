/-!
# Painted text

Text in colours and weights on a terminal, by escape sequences.

## Main definitions

* `Paint`: a combination of weight and colour;
* `Paint.apply`.
-/

namespace SqlSelect

/-- How a text is shown. -/
inductive Paint where
  | dimmed
  | yellow
  | cyan
  | white
  | boldRed
  | boldGreen
  | boldCyan
  | boldWhite

namespace Paint

/-- The codes of a paint: the weight, then the colour. -/
def codes : Paint → String
  | .dimmed => "2"
  | .yellow => "33"
  | .cyan => "36"
  | .white => "37"
  | .boldRed => "1;31"
  | .boldGreen => "1;32"
  | .boldCyan => "1;36"
  | .boldWhite => "1;37"

/-- The sequence that ends all paint. -/
def reset : String := "\x1b[0m"

/-- A text in a paint, if paint is enabled. A reset inside the text resumes the
    paint. -/
def apply (enabled : Bool) (paint : Paint) (text : String) : String :=
  if enabled then
    let start := "\x1b[" ++ paint.codes ++ "m"
    start ++ text.replace reset (reset ++ start) ++ reset
  else text

end Paint

end SqlSelect
