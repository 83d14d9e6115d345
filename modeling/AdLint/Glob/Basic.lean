/-!
# Patterns of paths

A pattern of paths is matched against the bytes of a path. Within a segment, `?` stands for one byte
and `*` for any number of them; `**` stands for any number of whole segments.

A part of a pattern relates a text to what may be left of it after the part has taken its share. A
pattern matches a path when nothing can be left.

## Main definitions

* `GlobPart`: a part of a pattern
* `Glob.matches`: whether a pattern matches a path
-/

namespace AdLint

/-- A part of a pattern of paths. -/
inductive GlobPart where
  | byte (value : UInt8)
  /-- One byte that is not a slash. -/
  | one
  /-- Any number of bytes that are not slashes. -/
  | many
  /-- Nothing, or segments with a slash after them. -/
  | leading
  /-- A slash, and all that follows. -/
  | trailing
  /-- A slash, or segments between two slashes. -/
  | between
  /-- One byte in the ranges, or outside them. -/
  | oneOf (negated : Bool) (ranges : List (UInt8 × UInt8))
  | choice (branches : List (List GlobPart))
  deriving Repr, Inhabited

/-- A pattern of paths. -/
abbrev Glob := List GlobPart

namespace GlobPart

/-- The slash between segments. -/
def slash : UInt8 := 47

/-- What may be left of a text after any number of bytes that are not slashes. -/
def afterMany : List UInt8 → List (List UInt8)
  | [] => [[]]
  | b :: bs => if b == slash then [b :: bs] else (b :: bs) :: afterMany bs

/-- What may be left of a text after a slash in it. -/
def afterSlashes : List UInt8 → List (List UInt8)
  | [] => []
  | b :: bs => if b == slash then bs :: afterSlashes bs else afterSlashes bs

/-- What may be left of a text after any number of bytes. -/
def suffixes : List UInt8 → List (List UInt8)
  | [] => [[]]
  | b :: bs => (b :: bs) :: suffixes bs

/-- Whether a byte is in ranges. -/
def inRanges (ranges : List (UInt8 × UInt8)) (b : UInt8) : Bool :=
  ranges.any fun range => range.1 ≤ b && b ≤ range.2

mutual

/-- What may be left of a text after a part. -/
def rests (text : List UInt8) : GlobPart → List (List UInt8)
  | byte value =>
    match text with
    | b :: bs => if b == value then [bs] else []
    | [] => []
  | one =>
    match text with
    | b :: bs => if b == slash then [] else [bs]
    | [] => []
  | many => afterMany text
  | leading => text :: afterSlashes text
  | trailing =>
    match text with
    | b :: bs => if b == slash then suffixes bs else []
    | [] => []
  | between =>
    match text with
    | b :: bs => if b == slash then bs :: afterSlashes bs else []
    | [] => []
  | oneOf negated ranges =>
    match text with
    | b :: bs => if inRanges ranges b != negated then [bs] else []
    | [] => []
  | choice branches =>
    if branches.all List.isEmpty then [text] else restsOfAny text branches

/-- What may be left of a text after parts one after the other. -/
def restsOfAll (texts : List (List UInt8)) : List GlobPart → List (List UInt8)
  | [] => texts
  | part :: parts => restsOfAll ((texts.flatMap fun text => part.rests text).eraseDups) parts

/-- What may be left of a text after one of some branches. Branches without parts do not count. -/
def restsOfAny (text : List UInt8) : List (List GlobPart) → List (List UInt8)
  | [] => []
  | branch :: branches =>
    (if branch.isEmpty then [] else restsOfAll [text] branch) ++ restsOfAny text branches

end

end GlobPart

/-- Whether a pattern matches a path. The pattern of segments alone matches every path. -/
def Glob.matches (glob : Glob) (path : String) : Bool :=
  match glob with
  | [.leading] => true
  | parts => (GlobPart.restsOfAll [path.toUTF8.toList] parts).contains []

end AdLint
