import AdLint.Text.Blank

/-!
# Numbers in reports

Counts are written with thousands separators, shares as percentages with one decimal and as bars.

A percentage is computed with 53 significant bits: the quotient of the counts is rounded to them,
and so is its product with 100. The decimal is then rounded from that number. Halves go to the even
neighbour each time.

## Main definitions

* `thousands`: a count with separators
* `percent`: a share as a percentage
* `barCells`: the filled cells of a bar
-/

namespace AdLint.Share

/-- The quotient of two numbers rounded to the nearest number, halves to the even one. -/
def roundDiv (n d : Nat) : Nat :=
  let q := n / d
  let r := n % d
  if 2 * r < d then q else if d < 2 * r then q + 1 else q + q % 2

/-- A number `mantissa / 2 ^ shift`. -/
structure Binary where
  mantissa : Nat
  shift : Nat
  deriving DecidableEq, Repr

/-- The quotient of a part and a whole at least as large, rounded to 53 significant bits. -/
def quotient (part whole : Nat) : Binary :=
  let least := 52 + whole.log2 - part.log2
  let shift := if part * Nat.pow 2 least / whole < Nat.pow 2 52 then least + 1 else least
  ⟨roundDiv (part * Nat.pow 2 shift) whole, shift⟩

/-- The product with a number, rounded to 53 significant bits. -/
def Binary.times (b : Binary) (n : Nat) : Binary :=
  let product := b.mantissa * n
  let extra := product.log2 - 52
  ⟨roundDiv product (Nat.pow 2 extra) * Nat.pow 2 extra, b.shift⟩

/-- The number in tenths, rounded. -/
def Binary.tenths (b : Binary) : Nat := roundDiv (b.mantissa * 10) (Nat.pow 2 b.shift)

/-- The share of a part as a percentage with one decimal, five characters wide. -/
def percent (part whole : Nat) : String :=
  let tenths := ((quotient part whole).times 100).tenths
  Text.padLeft 5 (toString (tenths / 10) ++ "." ++ toString (tenths % 10))

/-- The filled cells of a bar of `width` cells; a half cell counts as one. -/
def barCells (part whole width : Nat) : Nat :=
  if whole == 0 then 0 else min width ((2 * part * width + whole) / (2 * whole))

/-- The digits of a number, last one first, with a separator after every third. -/
def separate : List Char → List Char
  | a :: b :: c :: d :: rest => a :: b :: c :: ',' :: separate (d :: rest)
  | digits => digits

/-- A count with thousands separators. -/
def thousands (n : Nat) : String := String.ofList (separate (toString n).toList.reverse).reverse

end AdLint.Share
