import AdLint.Text.Blank

/-!
# Positions in a YAML text

A text is read from left to right. Where a token stands matters: the column decides what it belongs
to, and a key has to end on the line it began on.

## Main definitions

* `Cursor`: the text that is left, and where it stands
* `Cursor.ofText?`: the start of a text
-/

namespace AdLint.Yaml

/-- The text that is left, and where it stands. Lines and columns count from zero. -/
structure Cursor where
  rest : List Char
  line : Nat := 0
  column : Nat := 0
  index : Nat := 0
  deriving Repr, Inhabited

/-- Whether a character ends a line. -/
def isBreak (c : Char) : Bool := c == '\n' || c.toNat == 0x2028 || c.toNat == 0x2029

/-- Whether a character divides words. -/
def isBlank (c : Char) : Bool := c == ' ' || c == '\t'

/-- Whether a character may stand in a text. -/
def isAllowed (c : Char) : Bool :=
  let n := c.toNat
  n == 9 || n == 10 || n == 13 || (0x20 ≤ n && n ≤ 0x7E) || n == 0x85 || (0xA0 ≤ n && n ≤ 0xFFFD) ||
    0x10000 ≤ n

/-- The text with one character for the end of a line. -/
def unifyBreaks : List Char → List Char
  | [] => []
  | '\r' :: '\n' :: cs => '\n' :: unifyBreaks cs
  | c :: cs => (if c == '\r' || c.toNat == 0x85 then '\n' else c) :: unifyBreaks cs

namespace Cursor

/-- The start of a text, if all its characters may stand in one. A byte order mark does not
count. -/
def ofText? (text : String) : Option Cursor :=
  let cs :=
    match text.toList with
    | c :: cs => if c.toNat == 0xFEFF then cs else c :: cs
    | [] => []
  if cs.all isAllowed then some { rest := unifyBreaks cs } else none

/-- The character after `n` others. -/
def at? (c : Cursor) (n : Nat) : Option Char := c.rest[n]?

/-- The next character. -/
def head? (c : Cursor) : Option Char := c.rest.head?

/-- The cursor after the next character. -/
def next (c : Cursor) : Cursor :=
  match c.rest with
  | [] => c
  | d :: rest =>
    if isBreak d then { rest, line := c.line + 1, column := 0, index := c.index + 1 }
    else { rest, line := c.line, column := c.column + 1, index := c.index + 1 }

/-- The cursor after `n` characters. -/
def skip (c : Cursor) : Nat → Cursor
  | 0 => c
  | n + 1 => c.next.skip n

/-- The longest beginning of characters that satisfy `p`, and the cursor after it. -/
def takeWhile (c : Cursor) (p : Char → Bool) : List Char × Cursor :=
  let taken := c.rest.takeWhile p
  (taken, c.skip taken.length)

/-- The cursor after the longest beginning of characters that satisfy `p`. -/
def dropWhile (c : Cursor) (p : Char → Bool) : Cursor := (c.takeWhile p).2

/-- Whether the text is at its end. -/
def atEnd (c : Cursor) : Bool := c.rest.isEmpty

/-- Whether a blank, the end of a line or the end of the text stands after `n` characters. -/
def spaceAt (c : Cursor) (n : Nat) : Bool :=
  match c.at? n with
  | some d => isBlank d || isBreak d
  | none => true

/-- Whether the end of a line or of the text is next. -/
def atLineEnd (c : Cursor) : Bool :=
  match c.head? with
  | some d => isBreak d
  | none => true

/-- Whether the line begins with three times the same character and nothing right after it. -/
def atMark (c : Cursor) (mark : Char) : Bool :=
  c.column == 0 && c.rest.take 3 == [mark, mark, mark] && c.spaceAt 3

/-- Whether a mark between documents is next. -/
def atDocumentMark (c : Cursor) : Bool := c.atMark '-' || c.atMark '.'

/-- The cursor after the rest of the line. -/
def dropLine (c : Cursor) : Cursor := c.dropWhile fun d => !isBreak d

end Cursor

end AdLint.Yaml
