import AdLint.Text.Blank

/-!
# JSON values and how they are written

Values are written over several lines with two blanks for each level. Arrays and objects without
content stay on one line. A text escapes quotes, backslashes and control characters, and nothing
else.

## Main definitions

* `Json`: a value; a number is kept as written
* `Json.pretty`: the written form
-/

namespace AdLint

/-- A JSON value. -/
inductive Json where
  | null
  | truth (value : Bool)
  /-- A number, as written. -/
  | number (written : String)
  | text (value : String)
  | array (items : List Json)
  /-- Keys with their values, in order. -/
  | object (entries : List (String × Json))
  deriving Repr, Inhabited

namespace Json

/-- A count. -/
def count (n : Nat) : Json := .number (toString n)

/-- A hexadecimal digit. -/
def hexDigit (n : Nat) : Char := Nat.digitChar (n % 16)

/-- A character inside a text. -/
def escape (c : Char) : List Char :=
  match c with
  | '"' => ['\\', '"']
  | '\\' => ['\\', '\\']
  | '\n' => ['\\', 'n']
  | '\r' => ['\\', 'r']
  | '\t' => ['\\', 't']
  | '\x08' => ['\\', 'b']
  | '\x0c' => ['\\', 'f']
  | c =>
    if c.toNat < 0x20 then ['\\', 'u', '0', '0', hexDigit (c.toNat / 16), hexDigit c.toNat] else [c]

/-- A text with its quotes. -/
def quote (s : String) : String := "\"" ++ String.ofList (s.toList.flatMap escape) ++ "\""

/-- Written items between brackets, on lines of their own at a level; nothing stands between the
brackets if there are none. -/
def enclose (opening closing : String) (level : Nat) (items : List String) : String :=
  let indent (n : Nat) : String := "\n" ++ Text.replicate (2 * n) ' '
  if items.isEmpty then opening ++ closing
  else
    opening ++ indent (level + 1) ++ String.intercalate ("," ++ indent (level + 1)) items ++
      indent level ++ closing

mutual

/-- The written form of a value at a level. -/
def prettyAt (level : Nat) : Json → String
  | null => "null"
  | truth value => if value then "true" else "false"
  | number written => written
  | text value => quote value
  | array items => enclose "[" "]" level (prettyItems (level + 1) items)
  | object entries => enclose "\x7b" "\x7d" level (prettyEntries (level + 1) entries)

/-- The written forms of items. -/
def prettyItems (level : Nat) : List Json → List String
  | [] => []
  | item :: items => prettyAt level item :: prettyItems level items

/-- The written forms of entries. -/
def prettyEntries (level : Nat) : List (String × Json) → List String
  | [] => []
  | (key, value) :: entries =>
    (quote key ++ ": " ++ prettyAt level value) :: prettyEntries level entries

end

/-- The written form of a value. -/
def pretty (j : Json) : String := j.prettyAt 0

end Json

end AdLint
