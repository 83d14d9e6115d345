import AdLint.Json.Basic

/-!
# Faults of JSON texts

A fault is the first thing that is wrong with a text. Some are faults of the text alone: it stops
too early, or a mark is missing. Others are about what the text was meant to hold: a value of
another kind, or an object without a key that it needs. A fault stands at a place of the text, which
is kept as the number of bytes from there to the end.

## Main definitions

* `Cause`: what is wrong
* `Fault`: what is wrong, and where
* `Fault.message`: what is said about a fault of a text
-/

namespace AdLint.Json

/-- A value that stands where another one is wanted. -/
inductive Found where
  | null
  | truth (value : Bool)
  | integer (value : Int)
  /-- The number `digits · 10 ^ power`, below zero if the flag is set. -/
  | fraction (negative : Bool) (digits : Nat) (power : Int)
  | text (value : String)
  | array
  | object
  deriving DecidableEq, Repr, Inhabited

/-- What is wrong with a text. -/
inductive Cause where
  | endInList
  | endInObject
  | endInText
  | endInValue
  | noColon
  | listGoesOn
  | objectGoesOn
  | noWord
  | noValue
  | badEscape
  | badNumber
  | numberTooLarge
  | controlCharacter
  | noKey
  | loneSurrogate
  | unfinishedEscape
  | strayComma
  | strayText
  | wrongKind (found : Found) (wanted : String)
  | wrongValue (found : Found) (wanted : String)
  | wrongLength (length : Nat) (wanted : String)
  | missing (key : String)
  | repeated (key : String)
  deriving DecidableEq, Repr, Inhabited

/-! ## Values in messages -/

/-- A character of a quoted text; what cannot be printed is written with its number. -/
def quotedChar (c : Char) : List Char :=
  match c with
  | '"' => ['\\', '"']
  | '\\' => ['\\', '\\']
  | '\n' => ['\\', 'n']
  | '\r' => ['\\', 'r']
  | '\t' => ['\\', 't']
  | '\x00' => ['\\', '0']
  | c =>
    if c.toNat < 0x20 || (0x7F ≤ c.toNat && c.toNat < 0xA0) then
      "\\u\x7b".toList ++ Nat.toDigits 16 c.toNat ++ ['\x7d']
    else [c]

/-- A number without the zeros at its end, and how many there were, at most `n`. -/
def withoutZeros : Nat → Nat → Nat × Nat
  | 0, m => (m, 0)
  | n + 1, m =>
    if m != 0 && m % 10 == 0 then
      let (m, zeros) := withoutZeros n (m / 10)
      (m, zeros + 1)
    else (m, 0)

/-- A number with at most 17 digits that is nearest to the given one, and the digits that were
dropped. -/
def rounded (m : Nat) : Nat × Nat :=
  let dropped := (Nat.toDigits 10 m).length - 17
  ((m + Nat.pow 10 dropped / 2) / Nat.pow 10 dropped, dropped)

/-- The number `digits · 10 ^ power`. It is written with a point if the point stands among the first
sixteen digits or close before the first one, and with an exponent otherwise. -/
def fractionShown (negative : Bool) (digits : Nat) (power : Int) : String :=
  let (m, dropped) := rounded digits
  let (m, zeros) := withoutZeros (Nat.toDigits 10 m).length m
  let shown := Nat.toDigits 10 m
  let power := if m == 0 then 0 else power + dropped + zeros
  let point := shown.length + power
  let zeros (n : Int) : List Char := List.replicate n.toNat '0'
  let unsigned : List Char :=
    if 0 ≤ power && point ≤ 16 then shown ++ zeros power ++ ['.', '0']
    else if 0 < point && point ≤ 16 then shown.take point.toNat ++ '.' :: shown.drop point.toNat
    else if -5 < point && point ≤ 0 then '0' :: '.' :: zeros (-point) ++ shown
    else
      let exponent := 'e' :: (toString (point - 1)).toList
      if shown.length == 1 then shown ++ exponent
      else shown.take 1 ++ '.' :: shown.drop 1 ++ exponent
  String.ofList (if negative then '-' :: unsigned else unsigned)

/-- How a value is called in a message. -/
def Found.shown : Found → String
  | null => "null"
  | truth value => "boolean `" ++ (if value then "true" else "false") ++ "`"
  | integer value => s!"integer `{value}`"
  | fraction negative digits power =>
    "floating point `" ++ fractionShown negative digits power ++ "`"
  | text value => "string \"" ++ String.ofList (value.toList.flatMap quotedChar) ++ "\""
  | array => "sequence"
  | object => "map"

/-- What is said about a cause. -/
def Cause.message : Cause → String
  | endInList => "EOF while parsing a list"
  | endInObject => "EOF while parsing an object"
  | endInText => "EOF while parsing a string"
  | endInValue => "EOF while parsing a value"
  | noColon => "expected `:`"
  | listGoesOn => "expected `,` or `]`"
  | objectGoesOn => "expected `,` or `\x7d`"
  | noWord => "expected ident"
  | noValue => "expected value"
  | badEscape => "invalid escape"
  | badNumber => "invalid number"
  | numberTooLarge => "number out of range"
  | controlCharacter => "control character (\\u0000-\\u001F) found while parsing a string"
  | noKey => "key must be a string"
  | loneSurrogate => "lone leading surrogate in hex escape"
  | unfinishedEscape => "unexpected end of hex escape"
  | strayComma => "trailing comma"
  | strayText => "trailing characters"
  | wrongKind found wanted => "invalid type: " ++ found.shown ++ ", expected " ++ wanted
  | wrongValue found wanted => "invalid value: " ++ found.shown ++ ", expected " ++ wanted
  | wrongLength length wanted => s!"invalid length {length}, expected {wanted}"
  | missing key => "missing field `" ++ key ++ "`"
  | repeated key => "duplicate field `" ++ key ++ "`"

/-! ## Faults with their places -/

/-- What is wrong with a text, and where. -/
structure Fault where
  cause : Cause
  /-- The bytes from the place of the fault to the end of the text. -/
  left : Nat
  deriving DecidableEq, Repr, Inhabited

/-- The bytes of characters. -/
def bytesOf (cs : List Char) : Nat := cs.foldl (fun n c => n + c.utf8Size) 0

namespace Fault

/-- A fault before the given rest of a text. -/
def before (cause : Cause) (rest : List Char) : Fault := ⟨cause, bytesOf rest⟩

/-- A fault at the first byte of the given rest of a text; the place is behind that byte. -/
def atNext (cause : Cause) (rest : List Char) : Fault := ⟨cause, bytesOf rest - 1⟩

/-- What is said about a fault of a text: lines count from one, and columns are the bytes before the
place on its line. -/
def message (f : Fault) (text : String) : String :=
  let bytes := text.toUTF8.toList
  let read := bytes.take (bytes.length - f.left)
  let line := 1 + read.count 10
  let column := (Text.afterLast 10 read).length
  f.cause.message ++ s!" at line {line} column {column}"

end Fault

end AdLint.Json
