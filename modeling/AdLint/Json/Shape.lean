import AdLint.Json.Fault
import AdLint.Json.Reader

/-!
# Shapes of JSON texts

A shape says what a text is meant to hold. A text is read along its shape from left to right, and
the first fault is reported: a reader of the text meets faults of its marks and faults of its values
in the order in which they stand. What no key of the shape asks for is skipped, and only its marks
are checked.

An object is missing a key, or holds one twice, as a whole: such a fault stands behind the object,
if it is closed there.

## Main definitions

* `Shape`: what a text is meant to hold
* `Shape.fault?`: the first fault of a text
-/

namespace AdLint.Json

/-- What a text is meant to hold. -/
inductive Shape where
  | text
  /-- A natural number below a bound. -/
  | natural (name : String) (bound : Nat)
  /-- `null`, or what the shape says. -/
  | optional (shape : Shape)
  | list (item : Shape)
  /-- An object with these keys; the flag marks those that it needs. An array holds the values in
  the order of the keys. -/
  | record (name : String) (fields : List (String × Bool × Shape))
  deriving Inhabited

/-- How what is wanted is called in a message. -/
def Shape.wanted : Shape → String
  | text => "a string"
  | natural name _ => name
  | optional shape => shape.wanted
  | list _ => "a sequence"
  | record name _ => "struct " ++ name

/-! ## Words, texts and numbers -/

/-- The text after the rest of a word. -/
def afterWord : List Char → List Char → Except Fault (List Char)
  | [], cs => .ok cs
  | _ :: _, [] => .error (.before .endInValue [])
  | w :: ws, c :: cs => if w == c then afterWord ws cs else .error (.atNext .noWord (c :: cs))

/-- The number that four hexadecimal digits write. -/
def hexAt (cs : List Char) : Except Fault (Nat × List Char) :=
  match fourHex? cs with
  | some read => .ok read
  | none =>
    if bytesOf cs < 4 then .error ⟨.endInText, 0⟩ else .error ⟨.badEscape, bytesOf cs - 4⟩

/-- The character whose first half is the number `high`, when the second half follows. -/
def secondHalf (high : Nat) : List Char → Except Fault (Char × List Char)
  | [] => .error (.before .endInText [])
  | ['\\'] => .error (.before .endInText [])
  | '\\' :: 'u' :: cs => do
    let (low, rest) ← hexAt cs
    if 0xDC00 ≤ low && low < 0xE000 then
      return (Char.ofNat (0x10000 + (high - 0xD800) * 0x400 + (low - 0xDC00)), rest)
    else throw (.before .loneSurrogate rest)
  | '\\' :: cs => .error (.atNext .unfinishedEscape cs)
  | cs => .error (.atNext .unfinishedEscape cs)

/-- The character of an escape with a number. In a text that is skipped, halves may stand alone. -/
def numberedAt (skipped : Bool) (cs : List Char) : Except Fault (Char × List Char) := do
  let (n, rest) ← hexAt cs
  if skipped then return (Char.ofNat n, rest)
  else if 0xDC00 ≤ n && n < 0xE000 then throw (.before .loneSurrogate rest)
  else if 0xD800 ≤ n && n < 0xDC00 then secondHalf n rest
  else return (Char.ofNat n, rest)

/-- The character of an escape after its backslash. -/
def escapeAt (skipped : Bool) : List Char → Except Fault (Char × List Char)
  | [] => .error (.before .endInText [])
  | 'u' :: cs => numberedAt skipped cs
  | cs =>
    match escaped? cs with
    | some read => .ok read
    | none => .error (.atNext .badEscape cs)

/-- The characters of a text after its opening quote, at most `n`. -/
def charsAt (skipped : Bool) : Nat → List Char → Except Fault (List Char × List Char)
  | 0, cs => .error (.before .endInText cs)
  | _ + 1, [] => .error (.before .endInText [])
  | n + 1, c :: cs =>
    if c == '"' then .ok ([], cs)
    else if c == '\\' then do
      let (c, rest) ← escapeAt skipped cs
      let (more, rest) ← charsAt skipped n rest
      return (c :: more, rest)
    else if c.toNat < 0x20 then
      .error (if skipped then .before .controlCharacter (c :: cs)
        else .atNext .controlCharacter (c :: cs))
    else do
      let (more, rest) ← charsAt skipped n cs
      return (c :: more, rest)

/-- A text after its opening quote. -/
def textAt (skipped : Bool) (cs : List Char) : Except Fault (String × List Char) := do
  let (chars, rest) ← charsAt skipped (cs.length + 1) cs
  return (String.ofList chars, rest)

/-- The number that digits write. -/
def valueOf (digits : List Char) : Nat :=
  digits.foldl (fun n c => n * 10 + (c.toNat - '0'.toNat)) 0

/-- The digits of an exponent after its letter, with its sign. At the end of the text there is no
value; in a value that is skipped, this is a number that is not written well. -/
def exponentAt (skipped : Bool) (cs : List Char) : Except Fault (Int × List Char) :=
  let sign := cs.take 1 |>.filter fun c => c == '+' || c == '-'
  let rest := cs.drop sign.length
  let digits := rest.takeWhile Char.isDigit
  if digits.isEmpty then
    if rest.isEmpty then .error (.before (if skipped then .badNumber else .endInValue) [])
    else .error (.atNext .badNumber rest)
  else
    let n : Int := valueOf digits
    .ok (if sign == ['-'] then -n else n, rest.drop digits.length)

/-- The digits after a point. -/
def decimalsAt (skipped : Bool) (cs : List Char) : Except Fault (List Char × List Char) :=
  let digits := cs.takeWhile Char.isDigit
  if digits.isEmpty then
    .error (.atNext (if cs.isEmpty && !skipped then .endInValue else .badNumber) cs)
  else .ok (digits, cs.drop digits.length)

/-- Whether `digits · 10 ^ power` exceeds every number that has 53 binary digits and an exponent of
at most 1023, also when it is rounded. -/
def isTooLarge (digits : Nat) (power : Int) : Bool :=
  let bound := Nat.pow 2 1024 - Nat.pow 2 970
  let size := (Nat.toDigits 10 digits).length + power
  digits != 0 && (size > 310 ||
    (size > 300 &&
      (if 0 ≤ power then digits * Nat.pow 10 power.toNat ≥ bound
        else digits ≥ bound * Nat.pow 10 (-power).toNat)))

/-- What a number is: an integer if it is written as one and fits into 64 bits, or a fraction. -/
def numberFound (negative : Bool) (whole decimals : List Char) (exponent : Option Int) : Found :=
  let digits := valueOf (whole ++ decimals)
  let fraction := Found.fraction negative digits (exponent.getD 0 - decimals.length)
  if !decimals.isEmpty || exponent.isSome then fraction
  else if negative then
    if digits != 0 && digits ≤ Nat.pow 2 63 then .integer (-digits) else fraction
  else if digits < Nat.pow 2 64 then .integer digits
  else fraction

/-- The digits before the point of a number. A zero stands alone. -/
def wholeAt (skipped : Bool) : List Char → Except Fault (List Char × List Char)
  | [] => .error (.before (if skipped then .badNumber else .endInValue) [])
  | cs =>
    let digits := cs.takeWhile Char.isDigit
    if digits.isEmpty then .error (.atNext .badNumber cs)
    else if digits.head? == some '0' && digits.length > 1 then
      .error (.atNext .badNumber (cs.drop 1))
    else .ok (digits, cs.drop digits.length)

/-- A number. -/
def numberAt (skipped : Bool) (cs : List Char) : Except Fault (Found × List Char) := do
  let negative := cs.head? == some '-'
  let (whole, rest) ← wholeAt skipped (if negative then cs.drop 1 else cs)
  let (decimals, rest) ← match rest with
    | '.' :: rest => decimalsAt skipped rest
    | rest => Except.ok ([], rest)
  let (exponent, rest) ← match rest with
    | c :: after =>
      if c == 'e' || c == 'E' then (exponentAt skipped after).map fun (n, rest) => (some n, rest)
      else Except.ok (none, rest)
    | [] => Except.ok (none, rest)
  match numberFound negative whole decimals exponent with
  | .fraction negative digits power =>
    if !skipped && isTooLarge digits power then throw (.before .numberTooLarge rest)
    else return (.fraction negative digits power, rest)
  | found => return (found, rest)

/-- Whether a number begins with a character. -/
def beginsNumber (c : Char) : Bool := c == '-' || c.isDigit

/-! ## Values of another kind -/

/-- The fault of a value that is not of the wanted kind. The value is read first, so its own faults
win. -/
def misfit (wanted : String) (cs : List Char) : Fault :=
  let found (read : Except Fault (Found × List Char)) : Fault :=
    match read with
    | .ok (value, rest) => .before (.wrongKind value wanted) rest
    | .error fault => fault
  let word (rest : List Char) (ending : String) (value : Found) : Fault :=
    found ((afterWord ending.toList rest).map fun rest => (value, rest))
  match cs with
  | [] => .atNext .endInValue []
  | c :: rest =>
    match c with
    | 'n' => word rest "ull" .null
    | 't' => word rest "rue" (.truth true)
    | 'f' => word rest "alse" (.truth false)
    | '"' => found ((textAt false rest).map fun (s, rest) => (.text s, rest))
    | '[' => .before (.wrongKind .array wanted) cs
    | '\x7b' => .before (.wrongKind .object wanted) cs
    | c => if beginsNumber c then found (numberAt false cs) else .atNext .noValue cs

/-- A natural number below a bound. -/
def naturalAt (name : String) (bound : Nat) (cs : List Char) : Except Fault (List Char) := do
  if (cs.head?.map beginsNumber).getD false then
    let (found, rest) ← numberAt false cs
    match found with
    | .integer value =>
      if 0 ≤ value && value < bound then return rest
      else throw (.before (.wrongValue found name) rest)
    | _ => throw (.before (.wrongKind found name) rest)
  else throw (misfit name cs)

/-! ## Lists and objects -/

/-- The text before the next item of a list, or after its end. -/
def nextItem (first : Bool) (cs : List Char) : Except Fault (Bool × List Char) :=
  match skipBlanks cs with
  | [] => .error (.atNext .endInList [])
  | ']' :: rest => .ok (false, rest)
  | ',' :: rest =>
    if first then .ok (true, ',' :: rest)
    else
      match skipBlanks rest with
      | [] => .error (.atNext .endInValue [])
      | ']' :: rest => .error (.atNext .strayComma (']' :: rest))
      | rest => .ok (true, rest)
  | rest => if first then .ok (true, rest) else .error (.atNext .listGoesOn rest)

/-- The text after the quote that opens the next key of an object, or after its end. -/
def nextKey (first : Bool) (cs : List Char) : Except Fault (Bool × List Char) :=
  match skipBlanks cs with
  | [] => .error (.atNext .endInObject [])
  | '\x7d' :: rest => .ok (false, rest)
  | c :: rest =>
    if first then if c == '"' then .ok (true, rest) else .error (.atNext .noKey (c :: rest))
    else if c == ',' then
      match skipBlanks rest with
      | [] => .error (.atNext .endInValue [])
      | '"' :: rest => .ok (true, rest)
      | '\x7d' :: rest => .error (.atNext .strayComma ('\x7d' :: rest))
      | rest => .error (.atNext .noKey rest)
    else .error (.atNext .objectGoesOn (c :: rest))

/-- The text after the colon behind a key. -/
def afterColon (cs : List Char) : Except Fault (List Char) :=
  match skipBlanks cs with
  | [] => .error (.atNext .endInObject [])
  | ':' :: rest => .ok rest
  | rest => .error (.atNext .noColon rest)

/-- The text after the end of a list that holds all its items. -/
def afterList (cs : List Char) : Except Fault (List Char) :=
  match skipBlanks cs with
  | [] => .error (.atNext .endInList [])
  | ']' :: rest => .ok rest
  | ',' :: rest =>
    match skipBlanks rest with
    | ']' :: rest => .error (.atNext .strayComma (']' :: rest))
    | rest => .error (.atNext .strayText rest)
  | rest => .error (.atNext .strayText rest)

/-- The text after the end of an object, if it ends there. -/
def closed (cs : List Char) : List Char :=
  match skipBlanks cs with
  | '\x7d' :: rest => rest
  | rest => rest

/-- The first key that an object needs and does not hold. -/
def missing? (fields : List (String × Bool × Shape)) (seen : List String) : Option String :=
  (fields.find? fun (key, needed, _) => needed && !seen.contains key).map Prod.fst

/-- What is checked: a value, or what is left of a list or an object. -/
inductive Expectation where
  | value (shape : Shape)
  | items (shape : Shape) (first : Bool)
  /-- The values of a record that is written as an array; so many were read. -/
  | positions (name : String) (total : Nat) (fields : List (String × Bool × Shape)) (read : Nat)
  | entries (fields : List (String × Bool × Shape)) (seen : List String)
  /-- A value that is skipped. -/
  | anything
  | anyItems (first : Bool)
  | anyEntries (first : Bool)

/-- The text after what is checked, in at most `n` steps. -/
def after : Nat → Expectation → List Char → Except Fault (List Char)
  | 0, _, cs => .error (.before .endInValue cs)
  | n + 1, .value shape, cs =>
    match skipBlanks cs with
    | [] => .error (.atNext .endInValue [])
    | c :: rest =>
      match shape, c with
      | .text, '"' => (textAt false rest).map Prod.snd
      | .natural name bound, _ => naturalAt name bound (c :: rest)
      | .optional _, 'n' => afterWord "ull".toList rest
      | .optional shape, _ => after n (.value shape) (c :: rest)
      | .list item, '[' => after n (.items item true) rest
      | .record name fields, '[' => after n (.positions name fields.length fields 0) rest
      | .record _ fields, '\x7b' => after n (.entries fields []) rest
      | shape, _ => .error (misfit shape.wanted (c :: rest))
  | n + 1, .items shape first, cs => do
    let (more, rest) ← nextItem first cs
    if more then after n (.items shape false) (← after n (.value shape) rest) else return rest
  | _ + 1, .positions _ _ [] _, cs => afterList cs
  | n + 1, .positions name total ((_, needed, shape) :: fields) read, cs => do
    let (more, rest) ← nextItem (read == 0) cs
    if more then after n (.positions name total fields (read + 1)) (← after n (.value shape) rest)
    else if needed then
      throw (.before (.wrongLength read s!"struct {name} with {total} elements") rest)
    else return rest
  | n + 1, .entries fields seen, cs => do
    let (more, rest) ← nextKey seen.isEmpty cs
    if more then
      let (key, rest) ← textAt false rest
      match fields.find? fun field => field.1 == key with
      | some (_, _, shape) =>
        if seen.contains key then throw (.before (.repeated key) (closed rest))
        else after n (.entries fields (key :: seen)) (← after n (.value shape) (← afterColon rest))
      | none => after n (.entries fields (key :: seen)) (← after n .anything (← afterColon rest))
    else
      match missing? fields seen with
      | some key => throw (.before (.missing key) rest)
      | none => return rest
  | n + 1, .anything, cs =>
    match skipBlanks cs with
    | [] => .error (.atNext .endInValue [])
    | c :: rest =>
      match c with
      | 'n' => afterWord "ull".toList rest
      | 't' => afterWord "rue".toList rest
      | 'f' => afterWord "alse".toList rest
      | '"' => (textAt true rest).map Prod.snd
      | '[' => after n (.anyItems true) rest
      | '\x7b' => after n (.anyEntries true) rest
      | c =>
        if beginsNumber c then (numberAt true (c :: rest)).map Prod.snd
        else .error (.atNext .noValue (c :: rest))
  | n + 1, .anyItems first, cs =>
    match skipBlanks cs with
    | [] => .error (.atNext .endInList [])
    | ']' :: rest => .ok rest
    | c :: rest => do
      if first then after n (.anyItems false) (← after n .anything (c :: rest))
      else if c == ',' then after n (.anyItems false) (← after n .anything rest)
      else throw (.atNext .listGoesOn (c :: rest))
  | n + 1, .anyEntries first, cs =>
    match skipBlanks cs with
    | [] => .error (.atNext .endInObject [])
    | '\x7d' :: rest => .ok rest
    | c :: rest => do
      if !first && c != ',' then throw (.atNext .objectGoesOn (c :: rest))
      else
        match skipBlanks (if first then c :: rest else rest) with
        | [] => throw (.atNext .endInObject [])
        | '"' :: rest =>
          let (_, rest) ← textAt true rest
          after n (.anyEntries false) (← after n .anything (← afterColon rest))
        | rest => throw (.atNext .noKey rest)

/-- The first fault of a text that is meant to hold what the shape says. -/
def Shape.fault? (shape : Shape) (text : String) : Option Fault :=
  let cs := text.toList
  match after (4 * cs.length + 8) (.value shape) cs with
  | .error fault => some fault
  | .ok rest =>
    match skipBlanks rest with
    | [] => none
    | rest => some (.atNext .strayText rest)

end AdLint.Json
