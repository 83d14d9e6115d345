import AdLint.Text.Blank

/-!
# TOML scalars

The scalars that are no texts: truth values, numbers, dates and times. Only whether a word writes
one is of interest here.

## Main definitions

* `isScalar`: whether a word writes a scalar
-/

namespace AdLint.Toml

/-- Whether characters are digits with single underscores between them. -/
def isDigits (isDigit : Char → Bool) (cs : List Char) : Bool :=
  (Text.pieces '_' cs).all fun piece => !piece.isEmpty && piece.all isDigit

/-- The characters without a sign in front. -/
def unsigned : List Char → List Char
  | '+' :: cs => cs
  | '-' :: cs => cs
  | cs => cs

/-- Whether characters are a decimal number without zeros in front. -/
def isDecimal (cs : List Char) : Bool :=
  isDigits Char.isDigit cs && (cs.length == 1 || cs.head? != some '0')

/-- Whether characters are a whole number. -/
def isInteger (cs : List Char) : Bool :=
  match cs with
  | '0' :: 'x' :: rest => isDigits (fun c => c.isDigit || ('a' ≤ c.toLower && c.toLower ≤ 'f')) rest
  | '0' :: 'o' :: rest => isDigits (fun c => '0' ≤ c && c ≤ '7') rest
  | '0' :: 'b' :: rest => isDigits (fun c => c == '0' || c == '1') rest
  | cs => isDecimal (unsigned cs)

/-- Whether characters are the exponent of a number. -/
def isExponent (cs : List Char) : Bool := isDigits Char.isDigit (unsigned cs)

/-- Whether characters are a number with a fraction or an exponent. -/
def isFloat (cs : List Char) : Bool :=
  let cs := unsigned cs
  if cs == ['i', 'n', 'f'] || cs == ['n', 'a', 'n'] then true
  else
    let mantissa := cs.takeWhile fun c => c != 'e' && c != 'E'
    let exponent := cs.drop mantissa.length
    let goodExponent := exponent.isEmpty || isExponent exponent.tail
    match Text.pieces '.' mantissa with
    | [whole] => isDecimal whole && !exponent.isEmpty && goodExponent
    | [whole, fraction] => isDecimal whole && isDigits Char.isDigit fraction && goodExponent
    | _ => false

/-- The number that so many digits write. -/
def fixedDigits? (count : Nat) (cs : List Char) : Option Nat :=
  if cs.length == count && cs.all Char.isDigit then
    some (cs.foldl (fun n c => n * 10 + (c.toNat - '0'.toNat)) 0)
  else none

/-- The days of a month. -/
def daysIn (year month : Nat) : Nat :=
  if month == 2 then (if year % 4 == 0 && (year % 100 != 0 || year % 400 == 0) then 29 else 28)
  else if month == 4 || month == 6 || month == 9 || month == 11 then 30
  else 31

/-- Whether characters are a date. -/
def isDate (cs : List Char) : Bool :=
  match Text.pieces '-' cs with
  | [y, m, d] =>
    match fixedDigits? 4 y, fixedDigits? 2 m, fixedDigits? 2 d with
    | some year, some month, some day =>
      1 ≤ month && month ≤ 12 && 1 ≤ day && day ≤ daysIn year month
    | _, _, _ => false
  | _ => false

/-- Whether characters are two digits for a number below a bound. -/
def isBelow (bound : Nat) (cs : List Char) : Bool := (fixedDigits? 2 cs).any (· < bound)

/-- Whether characters are seconds, with or without a fraction. -/
def isSeconds (cs : List Char) : Bool :=
  match Text.pieces '.' cs with
  | [seconds] => isBelow 61 seconds
  | [seconds, fraction] => isBelow 61 seconds && !fraction.isEmpty && fraction.all Char.isDigit
  | _ => false

/-- Whether characters are a time of day. -/
def isTime (cs : List Char) : Bool :=
  match Text.pieces ':' cs with
  | [hours, minutes] => isBelow 24 hours && isBelow 60 minutes
  | [hours, minutes, seconds] => isBelow 24 hours && isBelow 60 minutes && isSeconds seconds
  | _ => false

/-- Whether characters are a time of day with an offset. -/
def isOffsetTime (cs : List Char) : Bool :=
  match cs.reverse with
  | 'Z' :: rest => isTime rest.reverse
  | 'z' :: rest => isTime rest.reverse
  | _ =>
    let offset := cs.drop (cs.length - 6)
    match offset with
    | sign :: rest =>
      match Text.pieces ':' rest with
      | [hours, minutes] =>
        (sign == '+' || sign == '-') && isBelow 24 hours && isBelow 60 minutes &&
          isTime (cs.take (cs.length - 6))
      | _ => false
    | [] => false

/-- Whether characters are a date and a time of day. -/
def isDateTime (cs : List Char) : Bool :=
  match cs.drop 10 with
  | divider :: time =>
    (divider == 'T' || divider == 't' || divider == ' ') && isDate (cs.take 10) &&
      (isTime time || isOffsetTime time)
  | [] => false

/-- Whether a word writes a scalar that is no text. -/
def isScalar (cs : List Char) : Bool :=
  cs == ['t', 'r', 'u', 'e'] || cs == ['f', 'a', 'l', 's', 'e'] || isInteger cs || isFloat cs ||
    isDate cs || isTime cs || isDateTime cs

end AdLint.Toml
