import AdLint.Text.Blank

/-!
# Literals

Integers and texts are written alike in the languages that are read: integers with digit separators,
base marks and type suffixes, texts in single or triple quotes with escapes.

## Main definitions

* `Literal.integer?`: the value of an integer literal, if it fits 64 bits
* `Literal.unquote`: the value of a text literal
-/

namespace AdLint.Literal

/-- The value of a digit. -/
def digit? (c : Char) : Option Nat :=
  if c.isDigit then some (c.toNat - '0'.toNat)
  else if 'a' ≤ c && c ≤ 'z' then some (c.toNat - 'a'.toNat + 10)
  else if 'A' ≤ c && c ≤ 'Z' then some (c.toNat - 'A'.toNat + 10)
  else none

/-- The number that digits of a base write after the number `n`. -/
def digitsFrom? (base : Nat) : Nat → List Char → Option Nat
  | n, [] => some n
  | n, c :: cs =>
    match digit? c with
    | some d => if d < base then digitsFrom? base (n * base + d) cs else none
    | none => none

/-- The greatest signed number of 64 bits. -/
def maxInt64 : Nat := Nat.pow 2 63 - 1

/-- The number that digits of a base write, if there is a digit and the number fits. -/
def digits? (base : Nat) (cs : List Char) : Option Int :=
  if cs.isEmpty then none
  else (digitsFrom? base 0 cs).bind fun n => if n ≤ maxInt64 then some (n : Int) else none

/-- The number that a numeral in small letters writes; a leading `0x`, `0b` or zero gives the
base. -/
def numeral? : List Char → Option Int
  | '0' :: 'x' :: digits => digits? 16 digits
  | '0' :: 'b' :: digits => digits? 2 digits
  | '0' :: d :: digits =>
    if (d :: digits).all Char.isDigit then digits? 8 (d :: digits)
    else digits? 10 ('0' :: d :: digits)
  | digits => digits? 10 digits

/-- The value of an integer literal. Separators are dropped and type suffixes too. -/
def integer? (written : String) : Option Int :=
  let isSuffix := fun c => ['l', 'L', 'u', 'U'].contains c
  let cs := Text.dropEndWhile isSuffix (written.toList.filter fun c => c != '_')
  numeral? (cs.map Text.asciiLower)

/-- The characters with escapes resolved: `\n` and `\t` stand for a line feed and a tab, and another
escaped character stands for itself. -/
def unescape : List Char → List Char
  | '\\' :: c :: cs => (if c == 'n' then '\n' else if c == 't' then '\t' else c) :: unescape cs
  | c :: cs => c :: unescape cs
  | [] => []

/-- The characters between two copies of a delimiter at the ends. -/
def between? (delimiter cs : List Char) : Option (List Char) := do
  let rest ← Text.afterStart? delimiter cs
  Text.beforeEnd? delimiter rest

/-- The characters of a text literal without its quotes; a text without quotes stands for itself. -/
def inner (cs : List Char) : List Char :=
  ((between? ['"', '"', '"'] cs).or (between? ['"'] cs)).getD cs

/-- The value of a text literal: without its quotes, escapes resolved. -/
def unquote (written : String) : String := String.ofList (unescape (inner written.toList))

end AdLint.Literal
