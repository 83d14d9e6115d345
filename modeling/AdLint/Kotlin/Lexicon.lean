import AdLint.Source.Token

/-!
# The tokens of Kotlin

A text literal is cut into its quotes, its plain characters and what is inserted into it, since
inserted expressions are read like others. What is open is kept on a stack.

A line end ends a statement unless the next token continues it. After the cut, `Token.newLine` says
that a statement can end before the token.

## Main definitions

* `lexicon`: how Kotlin is cut into tokens
* `continues`: whether a token continues a statement over a line end
* `tokens`: the tokens of a text
-/

namespace AdLint.Kotlin

/-- What is open: an inserted expression with so many open braces, a text, or a text in triple
quotes. -/
inductive Open where
  | insertion (braces : Nat)
  | text
  | rawText
  deriving DecidableEq, Repr, Inhabited

/-- The marks that are longer than one character; a mark stands before its own beginnings. -/
def marks : List String :=
  ["!==", "===", "..<", "..", "->", "::", "?:", "++", "--", "&&", "||", "==", "!=",
    "<=", ">=", "+=", "-=", "*=", "/=", "%=", "!!"]

/-- Whether a character belongs to the digits of a number, separators included. -/
def isDigitPart (c : Char) : Bool := c.isDigit || c == '_'

/-- The fraction at the front of a text: a point and digits. -/
def fraction : List Char → List Char
  | '.' :: d :: cs => if d.isDigit then '.' :: d :: cs.takeWhile isDigitPart else []
  | _ => []

/-- The exponent at the front of a text, if there is one. -/
def exponent : List Char → List Char
  | e :: cs =>
    if e == 'e' || e == 'E' then
      let sign := cs.take 1 |>.filter fun c => c == '+' || c == '-'
      let digits := (cs.drop sign.length).takeWhile isDigitPart
      if digits.isEmpty then [] else e :: sign ++ digits
    else []
  | [] => []

/-- The number at the front of a text: digits, a fraction, an exponent and suffixes. -/
def number (cs : List Char) : TokenKind × List Char :=
  let whole := cs.takeWhile isDigitPart
  let rest := cs.drop whole.length
  let point := fraction rest
  let rest := rest.drop point.length
  let power := exponent rest
  let rest := rest.drop power.length
  let float := rest.take 1 |>.filter fun c => c == 'f' || c == 'F'
  if point.isEmpty && power.isEmpty && float.isEmpty then
    (.integer, whole ++ rest.takeWhile fun c => ['u', 'U', 'l', 'L'].contains c)
  else (.floating, whole ++ point ++ power ++ float)

/-- The number with a base mark at the front of a text. -/
def basedNumber? : List Char → Option (List Char)
  | '0' :: x :: cs =>
    if ['x', 'X', 'b', 'B'].contains x then
      let isPart := fun (c : Char) =>
        isDigitPart c || ('a' ≤ c && c ≤ 'f') || ('A' ≤ c && c ≤ 'F')
      let digits := cs.takeWhile isPart
      let suffix := (cs.drop digits.length).takeWhile fun c => ['u', 'U', 'l', 'L'].contains c
      some ('0' :: x :: digits ++ suffix)
    else none
  | _ => none

/-- Whether characters begin an insertion after a dollar sign. -/
def beginsInsertion : List Char → Bool
  | c :: _ => c == '\x7b' || Scan.beginsName c
  | [] => false

/-- The plain characters at the front of a text literal. -/
def plainChars : List Char → List Char
  | '\\' :: c :: cs => '\\' :: c :: plainChars cs
  | '"' :: _ => []
  | '$' :: cs => if beginsInsertion cs then [] else '$' :: plainChars cs
  | c :: cs => c :: plainChars cs
  | [] => []

/-- Whether characters begin with the quotes that end a text in triple quotes: the last three of a
row of quotes. -/
def endsRawText : List Char → Bool
  | '"' :: '"' :: '"' :: c :: _ => c != '"'
  | ['"', '"', '"'] => true
  | _ => false

/-- The plain characters at the front of a text literal in triple quotes. -/
def rawChars : List Char → List Char
  | '$' :: cs => if beginsInsertion cs then [] else '$' :: rawChars cs
  | c :: cs => if endsRawText (c :: cs) then [] else c :: rawChars cs
  | [] => []

/-- What stands at the front of code. -/
def code (c : Char) (cs : List Char) : Lexeme :=
  if Scan.separates c then .blank
  else if c == '/' && cs.head? == some '/' then .comment (Scan.lineComment (c :: cs))
  else if c == '/' && cs.head? == some '*' then
    .comment (c :: '*' :: Scan.nestedComment 1 (cs.drop 1))
  else if c == '#' && cs.head? == some '!' then .comment (Scan.lineComment (c :: cs))
  else if c == '\x60' then
    .token .word (c :: cs.takeWhile (fun x => x != '\x60') ++ ['\x60'])
  else if Scan.beginsName c then
    let word := c :: cs.takeWhile Scan.continuesName
    if (c :: cs).drop word.length |>.head? |> (· == some '@') then .token .word (word ++ ['@'])
    else if word == ['a', 's'] && cs[1]? == some '?' && cs[2]? != some ':' &&
        cs[2]? != some '.' then
      .token .word ['a', 's', '?']
    else .token .word word
  else if c.isDigit || (c == '.' && (cs.head?.map Char.isDigit).getD false) then
    match basedNumber? (c :: cs) with
    | some taken => .token .integer taken
    | none =>
      let (kind, taken) := number (c :: cs)
      .token kind taken
  else if c == '\'' then .token .character ('\'' :: Scan.quoted '\'' cs)
  else .token .mark (Scan.mark marks (c :: cs))

/-- What stands at the front of a text literal, and what is open after it. -/
def literal (raw : Bool) (opened : List Open) (c : Char) (cs : List Char) : Lexeme × List Open :=
  let closes := if raw then endsRawText (c :: cs) else c == '"'
  if closes then (.token .quoteClose (if raw then ['"', '"', '"'] else ['"']), opened.drop 1)
  else if c == '$' && beginsInsertion cs then
    if cs.head? == some '\x7b' then (.token .insertOpen ['$', '\x7b'], .insertion 0 :: opened)
    else (.token .insertedName ('$' :: cs.takeWhile Scan.continuesName), opened)
  else
    let taken := if raw then rawChars (c :: cs) else plainChars (c :: cs)
    (.token .chunk (if taken.isEmpty then [c] else taken), opened)

/-- How Kotlin is cut into tokens. -/
def lexicon : Lexicon (List Open) where
  start := []
  next := fun opened c cs =>
    match opened with
    | .text :: _ => literal false opened c cs
    | .rawText :: _ => literal true opened c cs
    | _ =>
      if c == '"' then
        if (Text.afterStart? ['"', '"'] cs).isSome then
          (.token .quoteOpen ['"', '"', '"'], .rawText :: opened)
        else (.token .quoteOpen ['"'], .text :: opened)
      else
        match opened with
        | .insertion braces :: rest =>
          if c == '\x7b' then (.token .mark [c], .insertion (braces + 1) :: rest)
          else if c == '\x7d' then
            if braces == 0 then (.token .insertClose [c], rest)
            else (.token .mark [c], .insertion (braces - 1) :: rest)
          else (code c cs, opened)
        | _ => (code c cs, opened)

/-- The marks that never begin a statement. -/
def continuingMarks : List Char :=
  [',', '.', ':', '*', '%', '>', '<', '=', '\x7b', '[', '(', '?', '|', '&', '/']

/-- Whether a token continues a statement over a line end, given the token after it. A sign
continues unless it is doubled or stands before a digit, and `!` only as part of `!=`. Of the words,
`else` and `in` continue. -/
def continues (t : Token) (next : Option Token) : Bool :=
  match t.kind, t.text.toList with
  | .mark, c :: cs =>
    if c == '+' || c == '-' then
      let touchesDigit := match next with
        | some n => n.adjacent && (n.text.toList.head?.map Char.isDigit).getD false
        | none => false
      cs.head? != some c && !(cs.isEmpty && touchesDigit)
    else if c == '!' then cs.head? == some '='
    else continuingMarks.contains c
  | .word, 'i' :: 'n' :: rest => !(rest.head?.map Char.isAlpha).getD false
  | .word, cs => cs == ['e', 'l', 's', 'e']
  | .floating, c :: _ => c == '.'
  | _, _ => false

/-- The tokens, with `newLine` where a statement can end before the token. -/
def markEnds : List Token → List Token
  | [] => []
  | t :: ts => { t with newLine := t.newLine && !continues t ts.head? } :: markEnds ts

/-- The tokens of a text. -/
def tokens (text : String) : List Token := markEnds (lexicon.tokens text)

end AdLint.Kotlin
