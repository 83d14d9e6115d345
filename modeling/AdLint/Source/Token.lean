import AdLint.Source.Place

/-!
# Tokens

A text is cut into tokens before it is read. Each token carries the comments that stand before it,
since a comment takes its place in the tree with the token that follows it.
-/

namespace AdLint

/-- The kinds of tokens. -/
inductive TokenKind where
  /-- An identifier or a keyword. -/
  | word
  | integer
  | floating
  | character
  /-- A text literal without inner structure. -/
  | text
  /-- Punctuation and operators. -/
  | mark
  /-- The opening quote of a text with inner structure. -/
  | quoteOpen
  /-- Plain characters inside such a text. -/
  | chunk
  /-- A name inside such a text, with its dollar sign. -/
  | insertedName
  /-- The opening of an expression inside such a text. -/
  | insertOpen
  /-- The closing of an expression inside such a text. -/
  | insertClose
  /-- The closing quote. -/
  | quoteClose
  deriving DecidableEq, Repr, Inhabited

/-- A token. -/
structure Token where
  kind : TokenKind
  text : String
  span : Span
  /-- The comments before the token. -/
  comments : List Span := []
  /-- Whether a line ends between the last comment before the token, or else the last token, and the
  token. -/
  newLine : Bool := false
  /-- Whether nothing stands between the previous token and this one. -/
  adjacent : Bool := false
  deriving Repr, Inhabited

namespace Token

/-- Whether a token is this keyword or punctuation. -/
def reads (t : Token) (text : String) : Bool :=
  (t.kind == .word || t.kind == .mark) && t.text == text

end Token

/-- What was seen since the last token: comments, line ends, and whether anything was seen at
all. -/
structure Gap where
  comments : List Span := []
  newLine : Bool := false
  adjacent : Bool := true
  deriving Repr, Inhabited

namespace Gap

/-- The gap with one more blank character. -/
def blank (g : Gap) (c : Char) : Gap :=
  { g with newLine := g.newLine || c == '\n' || c == '\r', adjacent := false }

/-- The gap with one more comment. -/
def comment (g : Gap) (span : Span) : Gap :=
  { comments := g.comments ++ [span], newLine := false, adjacent := false }

end Gap

/-- The token of a kind that takes the given characters, after a gap. -/
def Token.make (kind : TokenKind) (cs : List Char) (place : Place) (gap : Gap) : Token :=
  { kind
    text := String.ofList cs
    span := ⟨place, (place.advanceAll cs).byte⟩
    comments := gap.comments
    newLine := gap.newLine
    adjacent := gap.adjacent }

namespace Scan

/-- Whether a character can begin an identifier. Outside ASCII every character that is not blank
can. -/
def beginsName (c : Char) : Bool :=
  c.isAlpha || c == '_' || (0x80 ≤ c.toNat && !Text.isBlank c)

/-- Whether a character can continue an identifier. -/
def continuesName (c : Char) : Bool := beginsName c || c.isDigit

/-- Whether a character separates tokens; a byte order mark does. -/
def separates (c : Char) : Bool := Text.isBlank c || c == '\uFEFF'

/-- The characters of a line comment: all up to the end of the line. -/
def lineComment (cs : List Char) : List Char := cs.takeWhile fun c => c != '\n'

/-- The characters of a block comment after its opening; it ends at the first closing. -/
def blockComment : List Char → List Char
  | '*' :: '/' :: _ => ['*', '/']
  | c :: cs => c :: blockComment cs
  | [] => []

/-- The characters of a block comment after its opening, where comments nest; `depth` counts
the open ones. -/
def nestedComment : Nat → List Char → List Char
  | depth, '*' :: '/' :: cs =>
    if depth ≤ 1 then ['*', '/'] else '*' :: '/' :: nestedComment (depth - 1) cs
  | depth, '/' :: '*' :: cs => '/' :: '*' :: nestedComment (depth + 1) cs
  | depth, c :: cs => c :: nestedComment depth cs
  | _, [] => []

/-- The first of some marks that the text begins with, or else its first character. -/
def mark (marks : List String) (cs : List Char) : List Char :=
  match marks.find? fun m => (Text.afterStart? m.toList cs).isSome with
  | some m => m.toList
  | none => cs.take 1

/-- The characters after an opening quote, up to the closing one and with it; a backslash hides the
character after it. -/
def quoted (quote : Char) : List Char → List Char
  | '\\' :: c :: cs => '\\' :: c :: quoted quote cs
  | c :: cs => if c == quote then [c] else c :: quoted quote cs
  | [] => []

/-- The characters after three opening quotes, up to the three closing ones and with them; a
backslash hides the character after it. -/
def tripleQuoted : List Char → List Char
  | '"' :: '"' :: '"' :: _ => ['"', '"', '"']
  | '\\' :: c :: cs => '\\' :: c :: tripleQuoted cs
  | c :: cs => c :: tripleQuoted cs
  | [] => []

end Scan

/-- What stands at the front of a text. -/
inductive Lexeme where
  | blank
  | comment (cs : List Char)
  | token (kind : TokenKind) (cs : List Char)

/-- How a language is cut into tokens. The state tells what is open; most of a text is read in the
start state. -/
structure Lexicon (σ : Type) where
  start : σ
  /-- What stands at the front of a text that is not empty, and the state after it. -/
  next : σ → Char → List Char → Lexeme × σ

namespace Lexicon

variable {σ : Type}

/-- The tokens of at most `n` lexemes. -/
def scan (l : Lexicon σ) : Nat → σ → Place → Gap → List Char → List Token
  | 0, _, _, _, _ => []
  | _ + 1, _, _, _, [] => []
  | n + 1, state, place, gap, c :: cs =>
    match l.next state c cs with
    | (.blank, state) => l.scan n state (place.advance c) (gap.blank c) cs
    | (.comment taken, state) =>
      let stop := place.advanceAll taken
      l.scan n state stop (gap.comment ⟨place, stop.byte⟩) ((c :: cs).drop taken.length)
    | (.token kind taken, state) =>
      Token.make kind taken place gap ::
        l.scan n state (place.advanceAll taken) {} ((c :: cs).drop taken.length)

/-- The tokens of a text. -/
def tokens (l : Lexicon σ) (text : String) : List Token :=
  let cs := text.toList
  l.scan cs.length l.start Place.start {} cs

end Lexicon

end AdLint
