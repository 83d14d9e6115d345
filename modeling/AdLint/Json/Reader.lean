import AdLint.Json.Basic

/-!
# Reading JSON

The reader is strict: no comments, no commas at the end of a list, no control characters in a text,
no surrogates that stand alone, and nothing after the value. Values nest at most 127 deep.

## Main definitions

* `Json.parse?`: the value that a text writes
-/

namespace AdLint.Json

/-- The text without blanks at its start. -/
def skipBlanks (cs : List Char) : List Char :=
  cs.dropWhile fun c => c == ' ' || c == '\t' || c == '\n' || c == '\r'

/-- The value of a hexadecimal digit. -/
def hexValue? (c : Char) : Option Nat :=
  if c.isDigit then some (c.toNat - '0'.toNat)
  else if 'a' ≤ c && c ≤ 'f' then some (c.toNat - 'a'.toNat + 10)
  else if 'A' ≤ c && c ≤ 'F' then some (c.toNat - 'A'.toNat + 10)
  else none

/-- The number that four hexadecimal digits write, and the text after them. -/
def fourHex? : List Char → Option (Nat × List Char)
  | a :: b :: c :: d :: rest => do
    some ((((← hexValue? a) * 16 + (← hexValue? b)) * 16 + (← hexValue? c)) * 16 + (← hexValue? d),
      rest)
  | _ => none

/-- The character of an escape with a number, and the text after it. A high surrogate needs a low
one after it. -/
def numbered? (cs : List Char) : Option (Char × List Char) := do
  let (n, rest) ← fourHex? cs
  if 0xD800 ≤ n && n < 0xDC00 then
    match rest with
    | '\\' :: 'u' :: rest =>
      let (m, rest) ← fourHex? rest
      if 0xDC00 ≤ m && m < 0xE000 then
        some (Char.ofNat (0x10000 + (n - 0xD800) * 0x400 + (m - 0xDC00)), rest)
      else none
    | _ => none
  else if 0xDC00 ≤ n && n < 0xE000 then none
  else some (Char.ofNat n, rest)

/-- The character of an escape, and the text after it. -/
def escaped? : List Char → Option (Char × List Char)
  | '"' :: cs => some ('"', cs)
  | '\\' :: cs => some ('\\', cs)
  | '/' :: cs => some ('/', cs)
  | 'b' :: cs => some ('\x08', cs)
  | 'f' :: cs => some ('\x0c', cs)
  | 'n' :: cs => some ('\n', cs)
  | 'r' :: cs => some ('\r', cs)
  | 't' :: cs => some ('\t', cs)
  | 'u' :: cs => numbered? cs
  | _ => none

/-- The characters of a text up to its closing quote, at most `n`, and what stands after it. -/
def chars? : Nat → List Char → Option (List Char × List Char)
  | 0, _ => none
  | _ + 1, [] => none
  | n + 1, c :: cs =>
    if c == '"' then some ([], cs)
    else if c == '\\' then do
      let (c, rest) ← escaped? cs
      let (more, rest) ← chars? n rest
      some (c :: more, rest)
    else if c.toNat < 0x20 then none
    else do
      let (more, rest) ← chars? n cs
      some (c :: more, rest)

/-- A text after its opening quote, and what stands after it. -/
def text? (cs : List Char) : Option (String × List Char) :=
  (chars? (cs.length + 1) cs).map fun (chars, rest) => (String.ofList chars, rest)

/-- At least one digit at the front of a text, and what stands after the digits. -/
def digits? (cs : List Char) : Option (List Char × List Char) :=
  let digits := cs.takeWhile Char.isDigit
  if digits.isEmpty then none else some (digits, cs.drop digits.length)

/-- A number at the front of a text, and what stands after it. A leading zero stands alone. -/
def number? (cs : List Char) : Option (String × List Char) := do
  let (sign, rest) := match cs with
    | '-' :: rest => (['-'], rest)
    | rest => ([], rest)
  let (whole, rest) ← digits? rest
  if whole.length > 1 && whole.head? == some '0' then none
  else
    let (fraction, rest) ← match rest with
      | '.' :: rest => (digits? rest).map fun (digits, rest) => ('.' :: digits, rest)
      | rest => some ([], rest)
    let (power, rest) ← match rest with
      | e :: rest =>
        if e == 'e' || e == 'E' then
          let sign := rest.take 1 |>.filter fun c => c == '+' || c == '-'
          (digits? (rest.drop sign.length)).map fun (digits, rest) => (e :: sign ++ digits, rest)
        else some ([], e :: rest)
      | [] => some ([], [])
    some (String.ofList (sign ++ whole ++ fraction ++ power), rest)

/-- What is being read: a value, or the rest of an array or an object after an item. -/
inductive Goal where
  | value
  | items
  | entries

/-- What was read. -/
inductive Answer where
  | value (json : Json)
  | items (jsons : List Json)
  | entries (pairs : List (String × Json))

/-- A key with its value at the front of a text. -/
def keyAt? (cs : List Char) : Option (String × List Char) :=
  match skipBlanks cs with
  | '"' :: rest => do
    let (key, rest) ← text? rest
    match skipBlanks rest with
    | ':' :: rest => some (key, rest)
    | _ => none
  | _ => none

/-- One step towards a goal, at most `depth` levels deep; `next` reads what is found on the way. -/
def readStep? (next : Nat → Goal → List Char → Option (Answer × List Char)) (depth : Nat) :
    Goal → List Char → Option (Answer × List Char)
  | .value, cs =>
    match skipBlanks cs with
    | '"' :: rest => (text? rest).map fun (s, rest) => (.value (.text s), rest)
    | '[' :: rest =>
      if depth == 0 then none
      else
        match skipBlanks rest with
        | ']' :: rest => some (.value (.array []), rest)
        | rest =>
          match next (depth - 1) .items rest with
          | some (.items items, rest) => some (.value (.array items), rest)
          | _ => none
    | '\x7b' :: rest =>
      if depth == 0 then none
      else
        match skipBlanks rest with
        | '\x7d' :: rest => some (.value (.object []), rest)
        | rest =>
          match next (depth - 1) .entries rest with
          | some (.entries entries, rest) => some (.value (.object entries), rest)
          | _ => none
    | rest =>
      match Text.afterStart? "null".toList rest, Text.afterStart? "true".toList rest,
        Text.afterStart? "false".toList rest with
      | some rest, _, _ => some (.value .null, rest)
      | _, some rest, _ => some (.value (.truth true), rest)
      | _, _, some rest => some (.value (.truth false), rest)
      | _, _, _ => (number? rest).map fun (s, rest) => (.value (.number s), rest)
  | .items, cs =>
    match next depth .value cs with
    | some (.value item, rest) =>
      match skipBlanks rest with
      | ']' :: rest => some (.items [item], rest)
      | ',' :: rest =>
        match next depth .items rest with
        | some (.items items, rest) => some (.items (item :: items), rest)
        | _ => none
      | _ => none
    | _ => none
  | .entries, cs =>
    match keyAt? cs with
    | some (key, rest) =>
      match next depth .value rest with
      | some (.value value, rest) =>
        match skipBlanks rest with
        | '\x7d' :: rest => some (.entries [(key, value)], rest)
        | ',' :: rest =>
          match next depth .entries rest with
          | some (.entries entries, rest) => some (.entries ((key, value) :: entries), rest)
          | _ => none
        | _ => none
      | _ => none
    | none => none

/-- Reads a goal in at most `n` steps, at most `depth` levels deep. -/
def read? : Nat → Nat → Goal → List Char → Option (Answer × List Char)
  | 0, _, _, _ => none
  | n + 1, depth, goal, cs => readStep? (read? n) depth goal cs

/-- The value that a text writes, if it writes one. -/
def parse? (s : String) : Option Json :=
  let cs := s.toList
  match read? (2 * cs.length + 2) 127 .value cs with
  | some (.value json, rest) => if (skipBlanks rest).isEmpty then some json else none
  | _ => none

end AdLint.Json
