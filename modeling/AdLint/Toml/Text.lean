import AdLint.Yaml.Scalar

/-!
# TOML texts

A text stands in double quotes, with escapes, or in single quotes, as it is; with three quotes on
each side it may hold line ends. A line end right after the opening quotes does not count. Every
reader takes the characters that are left and gives back what it read with the rest.

## Main definitions

* `text?`: the text that the characters begin with
-/

namespace AdLint.Toml

/-- Whether a character may stand in a text or a comment. -/
def isAllowed (c : Char) : Bool := c == '\t' || (0x20 ≤ c.toNat && c.toNat != 0x7F)

/-- The rest after a line end, if the characters begin with one. -/
def afterLineEnd? : List Char → Option (List Char)
  | '\n' :: cs => some cs
  | '\r' :: '\n' :: cs => some cs
  | _ => none

/-- The rest after blanks on a line. -/
def skipBlanks (cs : List Char) : List Char := cs.dropWhile fun c => c == ' ' || c == '\t'

/-- The rest after blanks and line ends. -/
def skipLineEnds : Nat → List Char → List Char
  | 0, cs => cs
  | n + 1, cs =>
    match afterLineEnd? (skipBlanks cs) with
    | some rest => skipLineEnds n rest
    | none => skipBlanks cs

/-- The character that so many hexadecimal digits write. -/
def hexChar? (digits : Nat) (cs : List Char) : Option (Char × List Char) := do
  let taken := cs.take digits
  let n ← Yaml.hexNumber? taken
  if taken.length < digits || (0xD800 ≤ n && n < 0xE000) || 0x110000 ≤ n then none
  else some (Char.ofNat n, cs.drop digits)

/-- The character of the escape after a backslash. -/
def escape? : List Char → Option (Char × List Char)
  | 'b' :: cs => some ('\x08', cs)
  | 't' :: cs => some ('\t', cs)
  | 'n' :: cs => some ('\n', cs)
  | 'f' :: cs => some ('\x0c', cs)
  | 'r' :: cs => some ('\r', cs)
  | 'e' :: cs => some ('\x1b', cs)
  | '"' :: cs => some ('"', cs)
  | '\\' :: cs => some ('\\', cs)
  | 'x' :: cs => hexChar? 2 cs
  | 'u' :: cs => hexChar? 4 cs
  | 'U' :: cs => hexChar? 8 cs
  | _ => none

/-- The rest of a text on one line, behind its opening quote. The bound is the length. -/
def lineText? (quote : Char) : Nat → List Char → List Char → Option (String × List Char)
  | 0, _, _ => none
  | _ + 1, _, [] => none
  | n + 1, taken, c :: cs =>
    if c == quote then some (String.ofList taken, cs)
    else if quote == '"' && c == '\\' then
      (escape? cs).bind fun (c, cs) => lineText? quote n (taken ++ [c]) cs
    else if isAllowed c then lineText? quote n (taken ++ [c]) cs
    else none

/-- The rest of a text over several lines, behind its opening quotes. Of more than three quotes at
its end, up to two belong to the text. A backslash at the end of a line takes the blanks and line
ends after it away. The bound is the length. -/
def linesText? (quote : Char) : Nat → List Char → List Char → Option (String × List Char)
  | 0, _, _ => none
  | _ + 1, _, [] => none
  | n + 1, taken, c :: cs =>
    if c == quote && cs.take 2 == [quote, quote] then
      let extra := ((cs.drop 2).take 2).takeWhile (· == quote)
      some (String.ofList (taken ++ extra), cs.drop (2 + extra.length))
    else if quote == '"' && c == '\\' then
      match afterLineEnd? (skipBlanks cs) with
      | some rest => linesText? quote n taken (skipLineEnds (rest.length + 1) rest)
      | none => (escape? cs).bind fun (c, cs) => linesText? quote n (taken ++ [c]) cs
    else
      match afterLineEnd? (c :: cs) with
      | some rest => linesText? quote n (taken ++ ['\n']) rest
      | none => if isAllowed c then linesText? quote n (taken ++ [c]) cs else none

/-- The text that the characters begin with. -/
def text? (cs : List Char) : Option (String × List Char) :=
  match cs with
  | c :: rest =>
    if c == '"' || c == '\'' then
      if rest.take 2 == [c, c] then
        let body := rest.drop 2
        linesText? c (body.length + 1) [] ((afterLineEnd? body).getD body)
      else lineText? c (rest.length + 1) [] rest
    else none
  | [] => none

/-- The text on one line that the characters begin with. -/
def shortText? (cs : List Char) : Option (String × List Char) :=
  match cs with
  | c :: rest => if c == '"' || c == '\'' then lineText? c (rest.length + 1) [] rest else none
  | [] => none

end AdLint.Toml
