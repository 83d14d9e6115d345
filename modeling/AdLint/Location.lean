import AdLint.Path

/-!
# Locations

A location is a byte range of a file together with the line and column at which it is shown. The
place shown need not be the start of the range: a declaration is shown at its name.
-/

namespace AdLint

/-- A byte range of a file, and the line and column at which it is shown. Lines and columns count
from 1, and columns count bytes. -/
structure Location where
  file : Path
  line : Nat
  column : Nat
  start : Nat
  stop : Nat
  deriving DecidableEq, Repr, Inhabited

namespace Location

/-- Whether `inner` lies within the byte range of `outer`, in the same file. -/
def contains (outer inner : Location) : Bool :=
  outer.file.same inner.file && outer.start ≤ inner.start && inner.stop ≤ outer.stop

/-- The number of bytes of the range. -/
def length (l : Location) : Nat := l.stop - l.start

/-- Whether the range has no byte. -/
def isEmpty (l : Location) : Bool := l.length == 0

/-- Whether two locations agree in every part, files by their components. -/
def same (a b : Location) : Bool :=
  a.file.same b.file && a.line == b.line && a.column == b.column && a.start == b.start &&
    a.stop == b.stop

end Location

end AdLint
