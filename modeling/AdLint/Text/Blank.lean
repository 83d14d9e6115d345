/-!
# Blank characters and plain text scanning

Names, types and rule lists are read from source texts that may be laid out freely, so most readers
begin by removing blank characters. A character is blank when it has the Unicode property
`White_Space`. This module holds that property and the scans on character lists that the other
readers are built from.

## Main definitions

* `isBlank c`: the property `White_Space`
* `compact s`: the text without its blank characters
* `trim s`: the text without blanks at either end
* `pieces sep cs`: the pieces between separators
-/

namespace AdLint.Text

/-- Code points with the Unicode property `White_Space`. -/
def isBlank (c : Char) : Bool :=
  let n := c.toNat
  (9 ≤ n && n ≤ 13) || n == 0x20 || n == 0x85 || n == 0xA0 || n == 0x1680 ||
    (0x2000 ≤ n && n ≤ 0x200A) || n == 0x2028 || n == 0x2029 || n == 0x202F || n == 0x205F ||
    n == 0x3000

/-- The text without its blank characters. -/
def compact (s : String) : String :=
  String.ofList (s.toList.filter fun c => !isBlank c)

/-- Drops the longest ending whose elements all satisfy `p`. -/
def dropEndWhile {α : Type} (p : α → Bool) (xs : List α) : List α :=
  (xs.reverse.dropWhile p).reverse

/-- Characters without blanks at the start. -/
def trimStartChars (cs : List Char) : List Char := cs.dropWhile isBlank

/-- Characters without blanks at the end. -/
def trimEndChars (cs : List Char) : List Char := dropEndWhile isBlank cs

/-- Characters without blanks at either end. -/
def trimChars (cs : List Char) : List Char := trimEndChars (trimStartChars cs)

/-- The text without blanks at either end. -/
def trim (s : String) : String := String.ofList (trimChars s.toList)

/-- The rest of `cs` after `head`, if `cs` begins with it. -/
def afterStart? : List Char → List Char → Option (List Char)
  | [], cs => some cs
  | _ :: _, [] => none
  | h :: hs, c :: cs => if h == c then afterStart? hs cs else none

/-- Whether `s` begins with `head`. -/
def beginsWith (s head : String) : Bool := (afterStart? head.toList s.toList).isSome

/-- The part of `cs` before `tail`, if `cs` ends with it. -/
def beforeEnd? (tail cs : List Char) : Option (List Char) :=
  (afterStart? tail.reverse cs.reverse).map List.reverse

/-- Whether `s` ends with `tail`. -/
def endsIn (s tail : String) : Bool := (beforeEnd? tail.toList s.toList).isSome

/-- Drops `tail` from the end as often as it stands there. The bound `n` is the length of the
text. -/
def dropEndAllAux (tail : List Char) : Nat → List Char → List Char
  | 0, cs => cs
  | n + 1, cs =>
    match beforeEnd? tail cs with
    | some rest => dropEndAllAux tail n rest
    | none => cs

/-- Drops `tail` from the end as often as it stands there. -/
def dropEndAll (tail : List Char) (cs : List Char) : List Char :=
  dropEndAllAux tail cs.length cs

/-- The pieces of a list between the elements equal to `sep`; there is always at least one. -/
def pieces {α : Type} [BEq α] (sep : α) : List α → List (List α)
  | [] => [[]]
  | x :: xs =>
    if x == sep then [] :: pieces sep xs
    else
      match pieces sep xs with
      | p :: ps => (x :: p) :: ps
      | [] => [[x]]

/-- The pieces of a text between separators. -/
def splitAt (sep : Char) (s : String) : List String :=
  (pieces sep s.toList).map String.ofList

/-- The two sides of the last `sep` of the list, if it has one. -/
def cutAtLast? {α : Type} [BEq α] (sep : α) (xs : List α) : Option (List α × List α) :=
  if xs.contains sep then
    let after := (xs.reverse.takeWhile fun x => !(x == sep)).reverse
    some (xs.take (xs.length - after.length - 1), after)
  else none

/-- The part of a list after the last `sep`, the whole list when it has none. -/
def afterLast {α : Type} [BEq α] (sep : α) (xs : List α) : List α :=
  (xs.reverse.takeWhile fun x => !(x == sep)).reverse

/-- The part of a dotted name after its last dot. -/
def lastDotted (s : String) : String := String.ofList (afterLast '.' s.toList)

/-- The lower case of an ASCII letter; every other character stands for itself. -/
def asciiLower (c : Char) : Char := c.toLower

/-- The text with its ASCII letters in lower case. -/
def lowerAscii (s : String) : String := String.ofList (s.toList.map asciiLower)

/-- Equality up to the case of ASCII letters. -/
def sameIgnoringAsciiCase (s t : String) : Bool := lowerAscii s == lowerAscii t

/-- The text with every `old` replaced by `new`. -/
def replaceChar (old new : Char) (s : String) : String :=
  String.ofList (s.toList.map fun c => if c == old then new else c)

/-- `n` copies of a character. -/
def replicate (n : Nat) (c : Char) : String := String.ofList (List.replicate n c)

/-- The text filled up with blanks on the right to `width` characters. -/
def padRight (width : Nat) (s : String) : String :=
  s ++ replicate (width - s.length) ' '

/-- The text filled up with blanks on the left to `width` characters. -/
def padLeft (width : Nat) (s : String) : String :=
  replicate (width - s.length) ' ' ++ s

/-- The lines of a text, cut at every line feed; a text without one is a single line. -/
def lines (s : String) : List String := splitAt '\n' s

end AdLint.Text
