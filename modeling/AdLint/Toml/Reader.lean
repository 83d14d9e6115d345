import AdLint.Toml.Scalar
import AdLint.Toml.Table
import AdLint.Toml.Text

/-!
# Reading TOML

A text is a list of lines, each a header or a key with its value. Values in brackets and braces may
go over several lines, with comments between them and a comma after the last one.

## Main definitions

* `Toml.parse?`: the document that a text writes
-/

namespace AdLint.Toml

/-- The rest after a comment, if there is one and its characters are allowed. -/
def skipComment? (cs : List Char) : Option (List Char) :=
  match cs with
  | '#' :: rest =>
    let comment := rest.takeWhile fun c => c != '\n'
    let comment := if comment.getLast? == some '\r' then comment.dropLast else comment
    if comment.all isAllowed then some (rest.drop comment.length) else none
  | cs => some cs

/-- The rest after blanks, line ends and comments. The bound is the length. -/
def skipSpace? : Nat → List Char → Option (List Char)
  | 0, cs => some cs
  | n + 1, cs => do
    let cs ← skipComment? (skipBlanks cs)
    match afterLineEnd? cs with
    | some rest => skipSpace? n rest
    | none => some cs

/-- The rest after blanks, line ends and comments. -/
def skipAll? (cs : List Char) : Option (List Char) := skipSpace? (cs.length + 1) cs

/-- Whether a character may stand in a key without quotes. -/
def isBareKey (c : Char) : Bool := c.isAlphanum || c == '_' || c == '-'

/-- The key that the characters begin with. -/
def key? (cs : List Char) : Option (String × List Char) :=
  let bare := cs.takeWhile isBareKey
  if bare.isEmpty then shortText? cs else some (String.ofList bare, cs.drop bare.length)

/-- The keys with dots between them that the characters begin with, and the rest after the blanks
behind them. The bound is the length. -/
def keys? : Nat → List Char → Option (List String × List Char)
  | 0, _ => none
  | n + 1, cs => do
    let (key, cs) ← key? cs
    match skipBlanks cs with
    | '.' :: rest => do
      let (keys, cs) ← keys? n (skipBlanks rest)
      some (key :: keys, cs)
    | cs => some ([key], cs)

/-- Whether a character ends a word. -/
def endsWord (c : Char) : Bool := " \t\r\n,]\x7d#=[\x7b\"'".toList.contains c

/-- The scalar that the characters begin with. A blank may stand between a date and a time. -/
def scalar? (cs : List Char) : Option (Document × List Char) :=
  let word := cs.takeWhile fun c => !endsWord c
  let rest := cs.drop word.length
  let longer :=
    match rest with
    | ' ' :: d :: _ =>
      if isDate word && d.isDigit then word ++ [' '] ++ rest.tail.takeWhile fun c => !endsWord c
      else word
    | _ => word
  if isScalar longer then some (.scalar, cs.drop longer.length) else none

mutual

/-- The value that the characters begin with. The bound is the length. -/
def value? : Nat → List Char → Option (Document × List Char)
  | 0, _ => none
  | n + 1, cs =>
    match cs with
    | '[' :: rest => items? n [] rest
    | '\x7b' :: rest => (entries? n [] rest).map fun (t, cs) => (.table (documentEntries t), cs)
    | '"' :: _ => (text? cs).map fun (s, cs) => (.text s, cs)
    | '\'' :: _ => (text? cs).map fun (s, cs) => (.text s, cs)
    | cs => scalar? cs

/-- The items of a list up to its closing bracket. -/
def items? : Nat → List Document → List Char → Option (Document × List Char)
  | 0, _, _ => none
  | n + 1, taken, cs => do
    match ← skipAll? cs with
    | ']' :: rest => some (.list taken, rest)
    | cs => do
      let (item, cs) ← value? n cs
      match ← skipAll? cs with
      | ',' :: rest => items? n (taken ++ [item]) rest
      | ']' :: rest => some (.list (taken ++ [item]), rest)
      | _ => none

/-- The entries of a table in braces up to its closing brace. -/
def entries? : Nat → Table → List Char → Option (Table × List Char)
  | 0, _, _ => none
  | n + 1, taken, cs => do
    match ← skipAll? cs with
    | '\x7d' :: rest => some (taken, rest)
    | cs => do
      let (taken, cs) ← entry? n taken cs
      match ← skipAll? cs with
      | ',' :: rest => entries? n taken rest
      | '\x7d' :: rest => some (taken, rest)
      | _ => none

/-- A table with the entry that the characters begin with. -/
def entry? : Nat → Table → List Char → Option (Table × List Char)
  | 0, _, _ => none
  | n + 1, t, cs => do
    let (keys, cs) ← keys? (cs.length + 1) cs
    match cs with
    | '=' :: rest => do
      let (value, cs) ← value? n (skipBlanks rest)
      some (← t.insert? value keys, cs)
    | _ => none

end

/-- What was read of a text: the table of all, and the keys of the last header. -/
structure Reading where
  table : Table := []
  header : List String := []

/-- The reading after the header that the characters begin with. -/
def Reading.header? (r : Reading) (cs : List Char) : Option (Reading × List Char) := do
  match cs with
  | '[' :: '[' :: rest =>
    let (keys, cs) ← keys? (rest.length + 1) (skipBlanks rest)
    match cs with
    | ']' :: ']' :: cs => some ({ table := ← r.table.openElement? keys, header := keys }, cs)
    | _ => none
  | '[' :: rest =>
    let (keys, cs) ← keys? (rest.length + 1) (skipBlanks rest)
    match cs with
    | ']' :: cs => some ({ table := ← r.table.openTable? keys, header := keys }, cs)
    | _ => none
  | _ => none

/-- The reading after the entry that the characters begin with. -/
def Reading.entry? (r : Reading) (cs : List Char) : Option (Reading × List Char) := do
  let (keys, cs) ← keys? (cs.length + 1) cs
  match cs with
  | '=' :: rest =>
    let (value, cs) ← value? (2 * rest.length + 2) (skipBlanks rest)
    let table ← r.table.change? (fun t => t.insert? value keys) r.header
    some ({ r with table }, cs)
  | _ => none

/-- The table of a whole text. The bound is the length. -/
def Reading.finish? : Nat → Reading → List Char → Option Table
  | 0, _, _ => none
  | n + 1, r, cs => do
    match ← skipAll? cs with
    | [] => some r.table
    | c :: cs =>
      let (r, cs) ← if c == '[' then r.header? (c :: cs) else r.entry? (c :: cs)
      match ← skipComment? (skipBlanks cs) with
      | [] => some r.table
      | cs => finish? n r (← afterLineEnd? cs)

/-- The document that a text writes. A byte order mark at its start does not count. -/
def parse? (text : String) : Option Document :=
  let cs :=
    match text.toList with
    | c :: cs => if c.toNat == 0xFEFF then cs else c :: cs
    | [] => []
  (Reading.finish? (cs.length + 1) {} cs).map fun t => .table (documentEntries t)

end AdLint.Toml
