import AdLint.Yaml.Scalar

/-!
# YAML tokens

The tokens of a text make its structure explicit. Outside brackets a deeper column opens a
collection and a shallower one closes it. What may turn out to be a key is kept in mind until a
colon follows it on the same line; the tokens for the key, and for a collection that it opens, are
then put in before it.

## Main definitions

* `Token`: a token
* `tokens?`: the tokens of a text
-/

namespace AdLint.Yaml

/-- A token. -/
inductive Token where
  | directive
  | documentStart
  | documentEnd
  | sequenceStart
  | mappingStart
  | blockEnd
  | flowSequenceStart
  | flowSequenceEnd
  | flowMappingStart
  | flowMappingEnd
  | blockEntry
  | flowEntry
  | key
  | value
  | reference (name : String)
  | anchor (name : String)
  | tag
  | scalar (text : String) (isPlain : Bool)
  deriving DecidableEq, Repr, Inhabited

/-- A token that may turn out to begin a key. -/
structure KeyMark where
  /-- The number of tokens before it. -/
  place : Nat
  line : Nat
  column : Nat
  index : Nat
  /-- Whether nothing but a key can stand here. -/
  required : Bool
  deriving Inhabited

/-- What was read of a text. -/
structure Scan where
  cursor : Cursor
  tokens : List Token := []
  /-- The columns of the open collections outside brackets, the innermost first. -/
  indents : List Nat := []
  /-- The mark outside brackets. -/
  mark : Option KeyMark := none
  /-- The marks around the open brackets, the innermost first; the current mark is `mark`. -/
  outer : List (Option KeyMark) := []
  /-- Whether a key may begin here. -/
  keyAllowed : Bool := true
  /-- The handles that directives declare for tags. -/
  handles : List String := []
  deriving Inhabited

namespace Scan

/-- Whether the cursor is inside brackets. -/
def inFlow (s : Scan) : Bool := !s.outer.isEmpty

/-- The lowest column of what belongs to the innermost collection. -/
def lowest (s : Scan) : Nat :=
  match s.indents with
  | [] => 0
  | n :: _ => n + 1

/-- The scan with one more token. -/
def push (s : Scan) (token : Token) : Scan := { s with tokens := s.tokens ++ [token] }

/-- The scan with a token put in behind `place` others. -/
def insert (s : Scan) (place : Nat) (token : Token) : Scan :=
  { s with tokens := s.tokens.take place ++ token :: s.tokens.drop place }

/-- The scan without its mark, which must not be required. -/
def dropMark? (s : Scan) : Option Scan :=
  match s.mark with
  | some m => if m.required then none else some { s with mark := none }
  | none => some s

/-- The scan with a mark at the cursor, if a key may begin here. -/
def setMark? (s : Scan) : Option Scan :=
  if s.keyAllowed then do
    let s ← s.dropMark?
    let c := s.cursor
    some
      { s with
        mark := some
          { place := s.tokens.length, line := c.line, column := c.column, index := c.index
            required := !s.inFlow && s.indents.head? == some c.column } }
  else some s

/-- The scan with a collection opened at a column, if that is deeper than the innermost one. -/
def openAt (s : Scan) (column place : Nat) (token : Token) : Scan :=
  if !s.inFlow && s.lowest ≤ column then
    { s.insert place token with indents := column :: s.indents }
  else s

/-- The open collections that a column closes, and those that stay open. -/
def closeAbove (column : Nat) : List Nat → List Token × List Nat
  | [] => ([], [])
  | n :: rest =>
    if column < n then
      let (tokens, rest) := closeAbove column rest
      (.blockEnd :: tokens, rest)
    else ([], n :: rest)

/-- The scan with the collections closed that are deeper than the cursor. -/
def closeDeeper (s : Scan) : Scan :=
  if s.inFlow then s
  else
    let (tokens, indents) := closeAbove s.cursor.column s.indents
    { s with tokens := s.tokens ++ tokens, indents }

/-- The scan with all collections closed. -/
def closeAll (s : Scan) : Scan :=
  if s.inFlow then s
  else { s with tokens := s.tokens ++ s.indents.map fun _ => .blockEnd, indents := [] }

/-- The scan with the cursor `n` characters further. -/
def skip (s : Scan) (n : Nat) : Scan := { s with cursor := s.cursor.skip n }

/-- The scan at the next token: behind blanks, comments and line ends. Tabs count as blanks only
where no key may begin. The bound is the length of the text. -/
def toToken : Nat → Scan → Scan
  | 0, s => s
  | n + 1, s =>
    let c := s.cursor.dropWhile fun d => d == ' ' || (d == '\t' && (s.inFlow || !s.keyAllowed))
    let c := if c.head? == some '#' then c.dropLine else c
    match c.head? with
    | some d =>
      if isBreak d then
        toToken n { s with cursor := c.next, keyAllowed := s.keyAllowed || !s.inFlow }
      else { s with cursor := c }
    | none => { s with cursor := c }

/-! ## Single tokens -/

/-- A character of a name. -/
def isNameChar (d : Char) : Bool := d.isAlphanum || d == '_' || d == '-'

/-- A mark between documents. -/
def documentMark? (s : Scan) (token : Token) : Option Scan := do
  let s ← s.closeAll.dropMark?
  some (({ s with keyAllowed := false }.push token).skip 3)

/-- A bracket that opens a flow collection. -/
def openFlow? (s : Scan) (token : Token) : Option Scan := do
  let s ← s.setMark?
  some (({ s with mark := none, outer := s.mark :: s.outer, keyAllowed := true }.push token).skip 1)

/-- A bracket that closes a flow collection. -/
def closeFlow? (s : Scan) (token : Token) : Option Scan := do
  let s ← s.dropMark?
  let s : Scan :=
    match s.outer with
    | mark :: outer => { s with mark, outer }
    | [] => s
  some (({ s with keyAllowed := false }.push token).skip 1)

/-- A comma between the entries of a flow collection. -/
def flowEntry? (s : Scan) : Option Scan := do
  let s ← s.dropMark?
  some (({ s with keyAllowed := true }.push .flowEntry).skip 1)

/-- A dash before an entry of a sequence. -/
def blockEntry? (s : Scan) : Option Scan := do
  if !s.inFlow && !s.keyAllowed then none
  else
    let s ← (s.openAt s.cursor.column s.tokens.length .sequenceStart).dropMark?
    some (({ s with keyAllowed := true }.push .blockEntry).skip 1)

/-- A question mark before a key. -/
def explicitKey? (s : Scan) : Option Scan := do
  if !s.inFlow && !s.keyAllowed then none
  else
    let s ← (s.openAt s.cursor.column s.tokens.length .mappingStart).dropMark?
    some (({ s with keyAllowed := !s.inFlow }.push .key).skip 1)

/-- Whether a key may still end at the cursor: it has to end on its line, and not too far from its
start. -/
def reaches (s : Scan) (m : KeyMark) : Bool :=
  m.line == s.cursor.line && s.cursor.index ≤ m.index + 1024

/-- A colon before a value. -/
def value? (s : Scan) : Option Scan :=
  let live := s.mark.filter fun m => s.reaches m
  match live with
  | some m =>
    let s := (s.insert m.place .key).openAt m.column m.place .mappingStart
    some (({ s with mark := none, keyAllowed := false }.push .value).skip 1)
  | none => do
    let s ← s.dropMark?
    if !s.inFlow && !s.keyAllowed then none
    else
      let s := s.openAt s.cursor.column s.tokens.length .mappingStart
      some (({ s with keyAllowed := !s.inFlow }.push .value).skip 1)

/-- The name of an anchor or an alias. -/
def named? (s : Scan) (token : String → Token) : Option Scan := do
  let s ← s.setMark?
  let (name, c) := s.cursor.next.takeWhile isNameChar
  let ends := c.spaceAt 0 || c.head?.any fun d => "?:,]\x7d%@\x60".toList.contains d
  if name.isEmpty || !ends then none
  else some ({ s with keyAllowed := false, cursor := c }.push (token (String.ofList name)))

/-- A character of the rest of a tag. -/
def isTagChar (d : Char) : Bool :=
  d.isAlphanum || "_-;/?:@&=+$.~*'()%".toList.contains d

/-- A tag. A handle with a name of its own has to be declared. -/
def tag? (s : Scan) : Option Scan := do
  let s ← s.setMark?
  let finish (c : Cursor) : Option Scan :=
    if c.spaceAt 0 || (s.inFlow && c.head? == some ',') then
      some ({ s with keyAllowed := false, cursor := c }.push .tag)
    else none
  let c := s.cursor.next
  if c.head? == some '<' then
    let (uri, c) := c.next.takeWhile fun d => isTagChar d || "!,[]".toList.contains d
    if uri.isEmpty || c.head? != some '>' then none else finish c.next
  else
    let (name, after) := c.takeWhile isNameChar
    if after.head? == some '!' then
      let (rest, c) := after.next.takeWhile fun d => isTagChar d || d == '!'
      let declared := name.isEmpty || s.handles.contains (String.ofList name)
      if rest.isEmpty || !declared then none else finish c
    else finish (c.dropWhile fun d => isTagChar d || d == '!')

/-- A scalar in quotes. -/
def quoted? (s : Scan) (read : Cursor → Option (List Char × Cursor)) : Option Scan := do
  let s ← s.setMark?
  let (text, c) ← read s.cursor
  some ({ s with keyAllowed := false, cursor := c }.push (.scalar (String.ofList text) false))

/-- A block of lines. -/
def block? (s : Scan) (literal : Bool) : Option Scan := do
  let s ← s.dropMark?
  let (text, c) ← Yaml.block? literal s.lowest s.cursor
  some ({ s with keyAllowed := true, cursor := c }.push (.scalar (String.ofList text) false))

/-- A scalar without quotes. -/
def plain? (s : Scan) : Option Scan := do
  let s ← s.setMark?
  let (p, c) ← Yaml.plain? s.inFlow s.lowest s.cursor
  some ({ s with keyAllowed := p.broken, cursor := c }.push (.scalar (String.ofList p.text) true))

/-- A directive: the version of the language, or a handle for tags. -/
def directive? (s : Scan) : Option Scan := do
  let s ← s.closeAll.dropMark?
  let (name, c) := s.cursor.next.takeWhile isNameChar
  let c := c.dropWhile isBlank
  let finish (s : Scan) (c : Cursor) : Option Scan :=
    let c := c.dropWhile isBlank
    let c := if c.head? == some '#' then c.dropLine else c
    if c.atLineEnd then some ({ s with keyAllowed := false, cursor := c }.push .directive) else none
  match String.ofList name with
  | "YAML" =>
    let (version, c) := c.takeWhile fun d => d.isDigit || d == '.'
    if version == ['1', '.', '1'] || version == ['1', '.', '2'] then finish s c else none
  | "TAG" =>
    let (handle, c) := c.next.takeWhile isNameChar
    let c := if c.head? == some '!' then c.next else c
    let (uri, c) := (c.dropWhile isBlank).takeWhile fun d => isTagChar d || "!,[]".toList.contains d
    if uri.isEmpty then none
    else finish { s with handles := String.ofList handle :: s.handles } c
  | _ => none

/-- Whether a character can begin a scalar without quotes. -/
def beginsPlain (s : Scan) (d : Char) : Bool :=
  !(isBlank d || isBreak d || "-?:,[]\x7b\x7d#&*!|>'\"%@\x60".toList.contains d) ||
    (d == '-' && !s.cursor.spaceAt 1) ||
    (!s.inFlow && (d == '?' || d == ':') && !s.cursor.spaceAt 1)

/-- The scan after the token at the cursor, which begins with `d`. -/
def token? (s : Scan) (d : Char) : Option Scan :=
  let spaced := s.inFlow || s.cursor.spaceAt 1
  if s.cursor.column == 0 && d == '%' then s.directive?
  else if s.cursor.atMark '-' then s.documentMark? .documentStart
  else if s.cursor.atMark '.' then s.documentMark? .documentEnd
  else if d == '[' then s.openFlow? .flowSequenceStart
  else if d == '\x7b' then s.openFlow? .flowMappingStart
  else if d == ']' then s.closeFlow? .flowSequenceEnd
  else if d == '\x7d' then s.closeFlow? .flowMappingEnd
  else if d == ',' then s.flowEntry?
  else if d == '-' && s.cursor.spaceAt 1 then s.blockEntry?
  else if d == '?' && spaced then s.explicitKey?
  else if d == ':' && spaced then s.value?
  else if d == '*' then s.named? .reference
  else if d == '&' then s.named? .anchor
  else if d == '!' then s.tag?
  else if d == '|' && !s.inFlow then s.block? true
  else if d == '>' && !s.inFlow then s.block? false
  else if d == '\'' then s.quoted? singleQuoted?
  else if d == '"' then s.quoted? doubleQuoted?
  else if s.beginsPlain d then s.plain?
  else none

/-- Whether a required key has been left behind. -/
def hasLostKey (s : Scan) : Bool :=
  (s.mark :: s.outer).any fun mark => mark.any fun m => m.required && !s.reaches m

/-- The tokens up to the end of the text. Each step takes a character, so the length of the text
bounds the steps. -/
def finish? : Nat → Scan → Option (List Token)
  | 0, _ => none
  | n + 1, s =>
    if s.hasLostKey then none
    else
      let s := (s.toToken (s.cursor.rest.length + 1)).closeDeeper
      match s.cursor.head? with
      | none => s.closeAll.dropMark?.map fun s => s.tokens
      | some d => (s.token? d).bind fun s => finish? n s

end Scan

/-- The tokens of a text. -/
def tokens? (text : String) : Option (List Token) :=
  (Cursor.ofText? text).bind fun c => Scan.finish? (c.rest.length + 2) { cursor := c }

end AdLint.Yaml
