import AdLint.Source.Token

/-!
# The tokens of Java

Closing angle brackets are cut one by one, since two of them may close two lists of type arguments;
shifts are put together again where an operator is read.
-/

namespace AdLint.Java

/-- Whether a character can begin an identifier. -/
def beginsName (c : Char) : Bool := Scan.beginsName c || c == '$'

/-- Whether a character can continue an identifier. -/
def continuesName (c : Char) : Bool := Scan.continuesName c || c == '$'

/-- The marks that are longer than one character; a mark stands before its own beginnings. -/
def marks : List String :=
  ["@interface", "<<=", "...", "->", "::", "++", "--", "&&", "||", "==", "!=", "<=",
    ">=", "<<", "+=", "-=", "*=", "/=", "&=", "|=", "^=", "%="]

/-- Whether a character belongs to the digits of a number, separators included. -/
def isDigitPart (c : Char) : Bool := c.isDigit || c == '_'

/-- Whether a character belongs to the digits of a hexadecimal number. -/
def isHexPart (c : Char) : Bool :=
  isDigitPart c || ('a' ≤ c && c ≤ 'f') || ('A' ≤ c && c ≤ 'F')

/-- The exponent at the front of a text, if there is one. -/
def exponent (letters : List Char) : List Char → List Char
  | e :: sign :: d :: cs =>
    if letters.contains e then
      if sign == '+' || sign == '-' then
        if d.isDigit then e :: sign :: d :: cs.takeWhile isDigitPart else []
      else if sign.isDigit then e :: sign :: (d :: cs).takeWhile isDigitPart
      else []
    else []
  | [e, d] => if letters.contains e && d.isDigit then [e, d] else []
  | _ => []

/-- The fraction at the front of a text: a point and digits. -/
def fraction (isPart : Char → Bool) : List Char → List Char
  | '.' :: cs => '.' :: cs.takeWhile isPart
  | _ => []

/-- The suffix at the front of a text. -/
def suffix (letters : List Char) : List Char → List Char
  | c :: _ => if letters.contains c then [c] else []
  | [] => []

/-- A number whose digits were read up to here, with its fraction, exponent and suffix. -/
def numberFrom (digits : List Char) (isPart : Char → Bool) (exponentLetters : List Char)
    (floatingSuffixes : List Char) (cs : List Char) : TokenKind × List Char :=
  let point := fraction isPart cs
  let cs := cs.drop point.length
  let power := exponent exponentLetters cs
  let cs := cs.drop power.length
  let ending := suffix floatingSuffixes cs
  if point.isEmpty && power.isEmpty && ending.isEmpty then
    (.integer, digits ++ suffix ['l', 'L'] cs)
  else (.floating, digits ++ point ++ power ++ ending)

/-- The number at the front of a text. -/
def number : List Char → TokenKind × List Char
  | z :: x :: cs =>
    if z == '0' && (x == 'x' || x == 'X') then
      let digits := cs.takeWhile isHexPart
      let rest := cs.drop digits.length
      let (kind, taken) := numberFrom (z :: x :: digits) isHexPart ['p', 'P'] [] rest
      if kind == .floating then
        (kind, taken ++ suffix ['f', 'F', 'd', 'D'] ((z :: x :: cs).drop taken.length))
      else (kind, taken)
    else if z == '0' && (x == 'b' || x == 'B') then
      let digits := cs.takeWhile isDigitPart
      (.integer, z :: x :: digits ++ suffix ['l', 'L'] (cs.drop digits.length))
    else
      let digits := (z :: x :: cs).takeWhile isDigitPart
      numberFrom digits isDigitPart ['e', 'E', 'p', 'P'] ['f', 'F', 'd', 'D']
        ((z :: x :: cs).drop digits.length)
  | cs => (.integer, cs)

/-- How Java is cut into tokens. -/
def lexicon : Lexicon Unit where
  start := ()
  next := fun _ c cs =>
    let lexeme : Lexeme :=
      if Scan.separates c then .blank
      else if c == '/' && cs.head? == some '/' then .comment (Scan.lineComment (c :: cs))
      else if c == '/' && cs.head? == some '*' then
        .comment (c :: '*' :: Scan.blockComment (cs.drop 1))
      else if (Text.afterStart? "non-sealed".toList (c :: cs)).isSome then
        .token .word "non-sealed".toList
      else if beginsName c then .token .word (c :: cs.takeWhile continuesName)
      else if c.isDigit || (c == '.' && (cs.head?.map Char.isDigit).getD false) then
        let (kind, taken) := number (c :: cs)
        .token kind taken
      else if c == '"' then
        if (Text.afterStart? ['"', '"'] cs).isSome then
          .token .text ('"' :: '"' :: '"' :: Scan.tripleQuoted (cs.drop 2))
        else .token .text ('"' :: Scan.quoted '"' cs)
      else if c == '\'' then .token .character ('\'' :: Scan.quoted '\'' cs)
      else .token .mark (Scan.mark marks (c :: cs))
    (lexeme, ())

end AdLint.Java
