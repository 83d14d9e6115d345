import AdLint.Location

/-!
# Places in a text

A place counts the bytes before it and knows its line and column. Lines and columns count from 1,
and columns count bytes, so a character that takes three bytes moves the column by three.
-/

namespace AdLint

/-- A place in a text. -/
structure Place where
  byte : Nat
  line : Nat
  column : Nat
  deriving DecidableEq, Repr, Inhabited

namespace Place

/-- The place before the first character. -/
def start : Place := ⟨0, 1, 1⟩

/-- The place after one more character. -/
def advance (p : Place) (c : Char) : Place :=
  if c == '\n' then ⟨p.byte + 1, p.line + 1, 1⟩
  else ⟨p.byte + c.utf8Size, p.line, p.column + c.utf8Size⟩

/-- The place after more characters. -/
def advanceAll (p : Place) (cs : List Char) : Place := cs.foldl advance p

end Place

/-- A stretch of a text: the place where it starts and the byte where it stops. -/
structure Span where
  start : Place
  stop : Nat
  deriving DecidableEq, Repr, Inhabited

/-- A text and the path it is read under. -/
structure Source where
  path : Path
  text : String
  deriving Inhabited

namespace Source

/-- The part of the text on a span. -/
def slice (s : Source) (span : Span) : String :=
  String.Pos.Raw.extract s.text ⟨span.start.byte⟩ ⟨span.stop⟩

/-- The location of a span, shown at the start of `anchor`. -/
def locate (s : Source) (span anchor : Span) : Location :=
  { file := s.path
    line := anchor.start.line
    column := anchor.start.column
    start := span.start.byte
    stop := span.stop }

end Source

end AdLint
