import AdLint.Glob.Basic

/-!
# Reading patterns of paths

A pattern is read from left to right. Two stars stand for whole segments when they fill a segment,
and for two single stars otherwise. Braces hold branches with commas between them, brackets hold
a class of characters, and a backslash takes the next character as it is.

## Main definitions

* `Glob.parse?`: the pattern that a text writes
-/

namespace AdLint.Glob

/-- A pair of braces that is still open: the parts before it and its finished branches, both with
the last one first. -/
structure OpenChoice where
  before : List GlobPart
  branches : List (List GlobPart)

/-- A class of characters that is still open, with its last range first. -/
structure OpenClass where
  negated : Bool
  ranges : List (Char × Char)
  /-- Whether nothing was read yet. -/
  isEmpty : Bool
  /-- Whether the last character was a dash after a character. -/
  inRange : Bool

/-- What was read of a pattern. -/
structure Reading where
  /-- The parts of the innermost branch, the last one first. -/
  parts : List GlobPart := []
  choices : List OpenChoice := []
  /-- The last character. -/
  previous : Option Char := none

/-- The parts that match the bytes of a character. -/
def literal (c : Char) : List GlobPart := c.toString.toUTF8.toList.map .byte

/-- The reading with one more part. -/
def Reading.push (r : Reading) (part : GlobPart) : Reading := { r with parts := part :: r.parts }

/-- The reading with one more character that stands for itself. -/
def Reading.pushLiteral (r : Reading) (c : Char) : Reading :=
  { r with parts := (literal c).reverse ++ r.parts, previous := some c }

/-- The byte ranges of a range of characters: all bytes of both ends, and the bytes between the last
one of the first end and the first one of the last end. -/
def byteRanges (range : Char × Char) : List (UInt8 × UInt8) :=
  let low := range.1.toString.toUTF8.toList
  let high := range.2.toString.toUTF8.toList
  if range.1 == range.2 then low.map fun b => (b, b)
  else low.map (fun b => (b, b)) ++ high.map (fun b => (b, b)) ++ [(low.getLastD 0, high.headD 0)]

/-- A class with one more character in it. The ends of a range have to be in order. -/
def OpenClass.add? (k : OpenClass) (c : Char) : Option OpenClass :=
  if c == '-' && !k.isEmpty && !k.inRange then some { k with inRange := true }
  else if k.inRange then
    match k.ranges with
    | (low, _) :: rest =>
      if c < low then none else some { k with ranges := (low, c) :: rest, inRange := false }
    | [] => none
  else some { k with ranges := (c, c) :: k.ranges, isEmpty := false }

/-- The part that a closed class writes. -/
def OpenClass.part (k : OpenClass) : GlobPart :=
  let ranges := if k.inRange then ('-', '-') :: k.ranges else k.ranges
  .oneOf k.negated (ranges.reverse.flatMap byteRanges)

/-- The class that a text begins with, and the text after it. -/
def classOf? (k : OpenClass) : List Char → Option (GlobPart × List Char)
  | [] => none
  | c :: cs =>
    if c == ']' && !k.isEmpty then some (k.part, cs)
    else (k.add? c).bind fun k => classOf? k cs

/-- The reading after two stars with `next` after them, and whether a slash after them belongs to
them. -/
def Reading.twoStars (r : Reading) (next : Option Char) : Reading × Bool :=
  let plain := ((r.push .many).push .many, false)
  let startsSegment :=
    r.previous == some '/' ||
      (!r.choices.isEmpty && (r.previous == some ',' || r.previous == some '\x7b'))
  let endsBranch := !r.choices.isEmpty && (next == some ',' || next == some '\x7d')
  match r.parts with
  | [] => if next == none || next == some '/' then (r.push .leading, true) else plain
  | last :: before =>
    let replaced (part : GlobPart) : Reading :=
      match last with
      | .leading => r
      | .trailing => r
      | _ => { r with parts := part :: before }
    if !startsSegment then plain
    else if next == none || endsBranch then (replaced .trailing, false)
    else if next == some '/' then (replaced .between, true)
    else plain

/-- The reading after a brace that closes a choice. -/
def Reading.close? (r : Reading) : Option Reading :=
  match r.choices with
  | [] => none
  | choice :: rest =>
    let branches := (r.parts.reverse :: choice.branches).reverse
    some { r with parts := .choice branches :: choice.before, choices := rest }

/-- The reading after a character that is neither a star, a bracket nor a backslash. -/
def Reading.next? (r : Reading) (c : Char) : Option Reading :=
  let seen : Reading := { r with previous := some c }
  match c with
  | '?' => some (seen.push .one)
  | '\x7b' => some { seen with parts := [], choices := ⟨r.parts, []⟩ :: r.choices }
  | '\x7d' => seen.close?
  | ',' =>
    match r.choices with
    | [] => some (r.pushLiteral ',')
    | choice :: rest =>
      some
        { seen with
          parts := []
          choices := { choice with branches := r.parts.reverse :: choice.branches } :: rest }
  | c => some (r.pushLiteral c)

/-- The class that follows a bracket, and the text after it. -/
def classAfterBracket? (cs : List Char) : Option (GlobPart × List Char) :=
  match cs with
  | '!' :: cs => classOf? ⟨true, [], true, false⟩ cs
  | '^' :: cs => classOf? ⟨true, [], true, false⟩ cs
  | cs => classOf? ⟨false, [], true, false⟩ cs

/-- The reading after a whole text. The bound is the length of the text. -/
def Reading.finish? : Nat → Reading → List Char → Option Reading
  | _, r, [] => if r.choices.isEmpty then some r else none
  | 0, _, _ :: _ => none
  | n + 1, r, '\\' :: c :: cs => finish? n (r.pushLiteral c) cs
  | _ + 1, _, ['\\'] => none
  | n + 1, r, '[' :: cs =>
    (classAfterBracket? cs).bind fun (part, cs) =>
      finish? n { r.push part with previous := some ']' } cs
  | n + 1, r, '*' :: '*' :: cs =>
    match r.twoStars cs.head? with
    | (r, true) => finish? n { r with previous := some (cs.headD '*') } cs.tail
    | (r, false) => finish? n { r with previous := some '*' } cs
  | n + 1, r, '*' :: cs => finish? n { r.push .many with previous := some '*' } cs
  | n + 1, r, c :: cs => (r.next? c).bind fun r => finish? n r cs

/-- The pattern that a text writes. -/
def parse? (text : String) : Option Glob :=
  let cs := text.toList
  (Reading.finish? cs.length {} cs).map fun r => r.parts.reverse

end AdLint.Glob
