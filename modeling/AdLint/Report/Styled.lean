import AdLint.Text.Blank

/-!
# Styled text

A report is a list of lines, and a line a list of texts with their style. Whether styles are shown
is decided when a report is printed: with colours, a styled text stands between the escape sequence
of its style and the one that ends it.

## Main definitions

* `Styled`: a text with its style
* `Line`: a line of a report
* `printed`: the text of lines
-/

namespace AdLint

/-- The colours of a terminal that reports use. -/
inductive Color where
  | red
  | green
  | yellow
  | blue
  | magenta
  | cyan
  | white
  deriving DecidableEq, Repr, Inhabited

/-- The code of a colour in an escape sequence. -/
def Color.code : Color → String
  | red => "31"
  | green => "32"
  | yellow => "33"
  | blue => "34"
  | magenta => "35"
  | cyan => "36"
  | white => "37"

/-- A style. -/
structure Style where
  color : Option Color := none
  bold : Bool := false
  dimmed : Bool := false
  deriving DecidableEq, Repr, Inhabited

/-- The codes of a style: those of the weight before that of the colour. -/
def Style.codes (s : Style) : List String :=
  (if s.bold then ["1"] else []) ++ (if s.dimmed then ["2"] else []) ++
    (s.color.map Color.code).toList

/-- A text with its style. -/
structure Styled where
  text : String
  style : Style := {}
  deriving DecidableEq, Repr, Inhabited

instance : Coe String Styled := ⟨fun text => { text }⟩

namespace Styled

/-- The text in a colour. -/
def colored (color : Color) (s : Styled) : Styled :=
  { s with style := { s.style with color := some color } }

/-- The text in bold type. -/
def bold (s : Styled) : Styled := { s with style := { s.style with bold := true } }

/-- The text in dimmed type. -/
def dimmed (s : Styled) : Styled := { s with style := { s.style with dimmed := true } }

/-- The text as it is printed. -/
def printed (colors : Bool) (s : Styled) : String :=
  let codes := s.style.codes
  if colors && !codes.isEmpty then
    "\x1b[" ++ String.intercalate ";" codes ++ "m" ++ s.text ++ "\x1b[0m"
  else s.text

end Styled

/-- A line of a report. -/
abbrev Line := List Styled

/-- The text of a line. -/
def Line.printed (colors : Bool) (line : Line) : String :=
  String.join (line.map fun s => s.printed colors)

/-- The text of lines, each with its end. -/
def printed (colors : Bool) (lines : List Line) : String :=
  String.join (lines.map fun line => line.printed colors ++ "\n")

end AdLint
