import AdLint.Source.Place

/-!
# Markup

A manifest is markup: text with tags, comments and declarations in it. It is cut into pieces from
left to right. Elements that are open at the end of the text are no mistake, while an end tag that
does not fit the innermost open element is.

## Main definitions

* `Tag`, `attributes`: a tag and what its attributes say
* `Piece`: what stands at the front of a text
* `pieces`: the tags of a text, or why it is no markup
-/

namespace AdLint.Manifest

/-- Why a text is no markup. -/
inductive MarkupError where
  /-- A tag, comment or declaration without an end. -/
  | unclosed
  /-- An exclamation mark that begins no known declaration. -/
  | unknownDeclaration
  /-- An ampersand without a semicolon. -/
  | openReference
  /-- An end tag that does not fit the innermost open element. -/
  | misplacedEnd
  deriving DecidableEq, Repr

/-- Whether a character is a blank of markup. -/
def isSpace (c : Char) : Bool := c == ' ' || c == '\t' || c == '\r' || c == '\n'

/-- A tag that opens an element. -/
structure Tag where
  name : String
  /-- The attributes with their values as written. -/
  attributes : List (String × String)
  /-- Whether the tag closes the element too. -/
  isEmpty : Bool
  span : Span
  deriving Repr, Inhabited

/-- The value of an attribute. -/
def Tag.attribute? (t : Tag) (key : String) : Option String :=
  (t.attributes.find? fun a => a.1 == key).map fun a => a.2

/-- The characters after the next character equal to `c`, with those before it. -/
def cutAt? (c : Char) : List Char → Option (List Char × List Char)
  | [] => none
  | x :: xs => if x == c then some ([], xs) else (cutAt? c xs).map fun (a, b) => (x :: a, b)

/-- The attributes of a tag, read from left to right at most `n` times; `seen` holds the keys so
far. A key without an equals sign is skipped. So is a key that was seen before, with its value, and
a value without quotes up to the next blank. -/
def attributesAux : Nat → List (List Char) → List Char → List (String × String)
  | 0, _, _ => []
  | n + 1, seen, cs =>
    match cs.dropWhile isSpace with
    | [] => []
    | c :: cs =>
      let key := c :: cs.takeWhile fun x => !(x == '=' || isSpace x)
      let afterKey := (cs.dropWhile fun x => !(x == '=' || isSpace x)).dropWhile isSpace
      match afterKey with
      | '=' :: rest =>
        match rest.dropWhile isSpace with
        | [] => []
        | q :: value =>
          if q == '"' || q == '\'' then
            match cutAt? q value with
            | some (value, rest) =>
              if seen.contains key then attributesAux n seen rest
              else (String.ofList key, String.ofList value) :: attributesAux n (key :: seen) rest
            | none => []
          else attributesAux n (key :: seen) ((q :: value).dropWhile fun x => !isSpace x)
      | rest => attributesAux n seen rest

/-- The attributes in the characters after the name of a tag. -/
def attributes (cs : List Char) : List (String × String) := attributesAux cs.length [] cs

/-- The characters of a tag up to the bracket that ends it; a bracket in quotes does not. -/
def tagContent? : Option Char → List Char → Option (List Char)
  | _, [] => none
  | none, c :: cs =>
    if c == '>' then some []
    else (tagContent? (if c == '"' || c == '\'' then some c else none) cs).map (c :: ·)
  | some q, c :: cs => (tagContent? (if c == q then none else some q) cs).map (c :: ·)

/-- The characters of a declaration up to the bracket that ends it; brackets in it pair up. -/
def doctypeContent? : Nat → List Char → Option (List Char)
  | _, [] => none
  | depth, c :: cs =>
    if c == '<' then (doctypeContent? (depth + 1) cs).map (c :: ·)
    else if c == '>' then
      if depth == 0 then some [] else (doctypeContent? (depth - 1) cs).map (c :: ·)
    else (doctypeContent? depth cs).map (c :: ·)

/-- The characters before the first copy of `ending`. -/
def before? (ending : List Char) : List Char → Option (List Char)
  | [] => none
  | c :: cs =>
    if (Text.afterStart? ending (c :: cs)).isSome then some [] else (before? ending cs).map (c :: ·)

/-- What stands at the front of a text, with the characters it takes. -/
inductive Piece where
  | opening (tag : Tag)
  | closing (name : String)
  | other
  deriving Repr

/-- The characters that take the first `n` bytes, if they end there. -/
def firstBytes? : Nat → List Char → Option (List Char)
  | 0, _ => some []
  | _ + 1, [] => none
  | n + 1, c :: cs =>
    if c.utf8Size ≤ n + 1 then (firstBytes? (n + 1 - c.utf8Size) cs).map (c :: ·) else none

/-- The span of a tag with the given characters. It stops `lag` bytes before the end of the tag, and
starts at the last opening bracket before its stop. If the stop is inside a character, the span
starts with the text. -/
def tagSpan (lag : Nat) (place : Place) (all : List Char) : Span :=
  let stop := (place.advanceAll all).byte - lag
  match firstBytes? (stop - place.byte) all with
  | some shown => ⟨place.advanceAll ((Text.cutAtLast? '<' shown).elim [] fun cut => cut.1), stop⟩
  | none => ⟨Place.start, stop⟩

/-- The tag whose characters between the brackets are `content`. -/
def tagOf (lag : Nat) (place : Place) (content : List Char) : Tag :=
  let span := tagSpan lag place ('<' :: content ++ ['>'])
  let (inner, isEmpty) :=
    match Text.beforeEnd? ['/'] content with
    | some inner => (inner, true)
    | none => (content, false)
  { name := String.ofList (inner.takeWhile fun c => !isSpace c)
    attributes := attributes (inner.dropWhile fun c => !isSpace c)
    isEmpty
    span }

/-- A declaration after `<!`, with the characters it takes from there on. -/
def declaration (cs : List Char) : Except MarkupError (List Char) :=
  match cs with
  | '-' :: '-' :: rest =>
    match before? ['-', '-', '>'] rest with
    | some content => .ok (['-', '-'] ++ content ++ ['-', '-', '>'])
    | none => .error .unclosed
  | '[' :: _ =>
    match Text.afterStart? "[CDATA[".toList cs with
    | some rest =>
      match before? [']', ']', '>'] rest with
      | some content => .ok ("[CDATA[".toList ++ content ++ [']', ']', '>'])
      | none => .error .unclosed
    | none => .error .unclosed
  | _ =>
    if (Text.afterStart? "doctype".toList (cs.map Text.asciiLower)).isSome then
      match doctypeContent? 0 cs with
      | some content =>
        if (content.drop 7).all isSpace then .error .unknownDeclaration else .ok (content ++ ['>'])
      | none => .error .unclosed
    else .error .unknownDeclaration

/-- What stands at the front of a text that is not empty, and the characters it takes. -/
def next (lag : Nat) (place : Place) : List Char → Except MarkupError (Piece × List Char)
  | '<' :: '!' :: cs => (declaration cs).map fun taken => (.other, '<' :: '!' :: taken)
  | '<' :: '?' :: '>' :: _ => .error .unclosed
  | '<' :: '?' :: cs =>
    match before? ['?', '>'] cs with
    | some content => .ok (.other, ['<', '?'] ++ content ++ ['?', '>'])
    | none => .error .unclosed
  | '<' :: '/' :: cs =>
    match cutAt? '>' cs with
    | some (content, _) =>
      .ok (.closing (String.ofList (Text.dropEndWhile isSpace content)),
        ['<', '/'] ++ content ++ ['>'])
    | none => .error .unclosed
  | '<' :: cs =>
    match tagContent? none cs with
    | some content => .ok (.opening (tagOf lag place content), '<' :: content ++ ['>'])
    | none => .error .unclosed
  | '&' :: cs =>
    let name := cs.takeWhile fun c => !(c == ';' || c == '&' || c == '<')
    if (cs.drop name.length).head? == some ';' then .ok (.other, '&' :: name ++ [';'])
    else .error .openReference
  | cs => .ok (.other, cs.takeWhile fun c => !(c == '<' || c == '&'))

/-- The tags of a text in at most `n` pieces; `opened` holds the names of the open elements,
innermost first. -/
def piecesAux (lag : Nat) : Nat → List String → Place → List Char → Except MarkupError (List Piece)
  | 0, _, _, _ => .ok []
  | _ + 1, _, _, [] => .ok []
  | n + 1, opened, place, cs => do
    let (piece, taken) ← next lag place cs
    let place := place.advanceAll taken
    let rest := cs.drop taken.length
    match piece with
    | .other => piecesAux lag n opened place rest
    | .opening tag =>
      let opened := if tag.isEmpty then opened else tag.name :: opened
      return piece :: (← piecesAux lag n opened place rest)
    | .closing name =>
      match opened with
      | innermost :: opened =>
        if innermost == name then return piece :: (← piecesAux lag n opened place rest)
        else .error .misplacedEnd
      | [] => .error .misplacedEnd

/-- The tags of a text, or why it is no markup. The ends of tags are counted without a byte order
mark at the start of the text. -/
def pieces (text : String) : Except MarkupError (List Piece) :=
  let cs := text.toList
  let lag := if cs.head? == some '\uFEFF' then '\uFEFF'.utf8Size else 0
  piecesAux lag cs.length [] Place.start cs

end AdLint.Manifest
