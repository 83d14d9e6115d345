import AdLint.Json.Reader
import AdLint.Yaml.Cursor

/-!
# YAML scalars

A scalar is written without quotes, in single or double quotes, or as a block of lines. A scalar
over several lines is folded: a line end becomes a blank, and each empty line after it a line end.
Only the literal block keeps its line ends.

## Main definitions

* `plain?`, `singleQuoted?`, `doubleQuoted?`, `block?`: the scalar at a cursor, and the cursor after
  it
-/

namespace AdLint.Yaml

/-- Blanks and line ends between two words of a scalar. -/
structure Gap where
  /-- The blanks before the first line end. -/
  blanks : List Char := []
  /-- The first line end. -/
  first : List Char := []
  /-- The line ends after the first one. -/
  more : List Char := []
  /-- Whether a line ended. -/
  broken : Bool := false
  deriving Inhabited

namespace Gap

/-- What a gap stands for. -/
def folded (g : Gap) : List Char :=
  if g.broken then
    if g.first == ['\n'] then (if g.more.isEmpty then [' '] else g.more) else g.first ++ g.more
  else g.blanks

/-- The gap at a cursor, and the cursor after it. A tab after a line end has to stand at the column
`lowest` or after it. The bound is the length of the text. -/
def read? (lowest : Nat) : Nat → Gap → Cursor → Option (Gap × Cursor)
  | 0, g, c => some (g, c)
  | n + 1, g, c =>
    match c.head? with
    | some d =>
      if isBlank d then
        if g.broken then
          if d == '\t' && c.column < lowest then none else read? lowest n g c.next
        else read? lowest n { g with blanks := g.blanks ++ [d] } c.next
      else if isBreak d then
        if g.broken then read? lowest n { g with more := g.more ++ [d] } c.next
        else read? lowest n { g with first := [d], broken := true } c.next
      else some (g, c)
    | none => some (g, c)

end Gap

/-! ## Scalars without quotes -/

/-- The brackets and the comma that divide a flow collection. -/
def isFlowDivider (d : Char) : Bool :=
  d == ',' || d == '[' || d == ']' || d == '\x7b' || d == '\x7d'

/-- The word at a cursor, and the cursor after it. In a flow collection a colon must not stand
before a bracket or a comma. The bound is the length of the text. -/
def word? (flow : Bool) : Nat → List Char → Cursor → Option (List Char × Cursor)
  | 0, taken, c => some (taken, c)
  | n + 1, taken, c =>
    match c.head? with
    | none => some (taken, c)
    | some d =>
      if isBlank d || isBreak d then some (taken, c)
      else if flow && d == ':' && (c.at? 1).any (fun e => isFlowDivider e || e == '?') then none
      else if d == ':' && c.spaceAt 1 then some (taken, c)
      else if flow && isFlowDivider d then some (taken, c)
      else word? flow n (taken ++ [d]) c.next

/-- A scalar without quotes. -/
structure Plain where
  text : List Char
  /-- Whether a line ended after it. -/
  broken : Bool

/-- The words of a scalar without quotes at a cursor, and the cursor after them and the gap after
them. Outside flow collections, words on later lines have to stand at the column `lowest` or after
it. -/
def words? (flow : Bool) (lowest : Nat) : Nat → List Char → Gap → Cursor → Option (Plain × Cursor)
  | 0, taken, g, c => some (⟨taken, g.broken⟩, c)
  | n + 1, taken, g, c =>
    if c.atDocumentMark || c.head? == some '#' then some (⟨taken, g.broken⟩, c)
    else do
      let (word, c) ← word? flow c.rest.length [] c
      let (taken, g) := if word.isEmpty then (taken, g) else (taken ++ g.folded ++ word, {})
      match c.head? with
      | some d =>
        if isBlank d || isBreak d then
          let (g, c) ← g.read? lowest c.rest.length c
          if !flow && c.column < lowest then some (⟨taken, g.broken⟩, c)
          else words? flow lowest n taken g c
        else some (⟨taken, g.broken⟩, c)
      | none => some (⟨taken, g.broken⟩, c)

/-- The scalar without quotes at a cursor, and the cursor after it. -/
def plain? (flow : Bool) (lowest : Nat) (c : Cursor) : Option (Plain × Cursor) :=
  words? flow lowest (c.rest.length + 1) [] {} c

/-! ## Scalars in quotes -/

/-- The number that hexadecimal digits write. -/
def hexNumber? (digits : List Char) : Option Nat :=
  digits.foldlM (fun n d => (Json.hexValue? d).map fun v => n * 16 + v) 0

/-- The character of an escape with so many hexadecimal digits, and the cursor after it. -/
def hexEscape? (digits : Nat) (c : Cursor) : Option (List Char × Cursor) := do
  let taken := c.rest.take digits
  if taken.length < digits then none
  else
    let n ← hexNumber? taken
    if (0xD800 ≤ n && n < 0xE000) || 0x110000 ≤ n then none
    else some ([Char.ofNat n], c.skip digits)

/-- The character of the escape after a backslash, and the cursor after it. -/
def escape? (c : Cursor) : Option (List Char × Cursor) := do
  let known (n : Nat) : Option (List Char × Cursor) := some ([Char.ofNat n], c.next)
  match ← c.head? with
  | '0' => known 0
  | 'a' => known 7
  | 'b' => known 8
  | 't' => known 9
  | '\t' => known 9
  | 'n' => known 10
  | 'v' => known 11
  | 'f' => known 12
  | 'r' => known 13
  | 'e' => known 27
  | ' ' => known 0x20
  | '"' => known 0x22
  | '/' => known 0x2F
  | '\\' => known 0x5C
  | 'N' => known 0x85
  | '_' => known 0xA0
  | 'L' => known 0x2028
  | 'P' => known 0x2029
  | 'x' => hexEscape? 2 c.next
  | 'u' => hexEscape? 4 c.next
  | 'U' => hexEscape? 8 c.next
  | _ => none

/-- The text in single quotes at a cursor, up to a blank, a line end or the closing quote. -/
def singleRun : Nat → List Char → Cursor → List Char × Cursor
  | 0, taken, c => (taken, c)
  | n + 1, taken, c =>
    match c.rest with
    | '\'' :: '\'' :: _ => singleRun n (taken ++ ['\'']) (c.skip 2)
    | d :: _ =>
      if d == '\'' || isBlank d || isBreak d then (taken, c) else singleRun n (taken ++ [d]) c.next
    | [] => (taken, c)

/-- The text in double quotes at a cursor, up to a blank, a line end or the closing quote, and
whether it ends with an escaped line end. -/
def doubleRun? : Nat → List Char → Cursor → Option (List Char × Bool × Cursor)
  | 0, taken, c => some (taken, false, c)
  | n + 1, taken, c =>
    match c.rest with
    | '\\' :: d :: _ =>
      if isBreak d then some (taken, true, c.skip 2)
      else do
        let (cs, c) ← escape? c.next
        doubleRun? n (taken ++ cs) c
    | ['\\'] => none
    | d :: _ =>
      if d == '"' || isBlank d || isBreak d then some (taken, false, c)
      else doubleRun? n (taken ++ [d]) c.next
    | [] => some (taken, false, c)

/-- The text in quotes at a cursor behind the opening quote, and the cursor behind the closing
one. -/
def quoted? (quote : Char) : Nat → List Char → Cursor → Option (List Char × Cursor)
  | 0, _, _ => none
  | n + 1, taken, c =>
    if c.atDocumentMark then none
    else do
      let (run, escaped, c) ←
        if quote == '"' then doubleRun? c.rest.length [] c
        else
          let (run, c) := singleRun c.rest.length [] c
          some (run, false, c)
      let taken := taken ++ run
      match c.head? with
      | none => none
      | some d =>
        if d == quote then some (taken, c.next)
        else
          let (g, c) ← Gap.read? 0 c.rest.length { broken := escaped } c
          quoted? quote n (taken ++ g.folded) c

/-- The scalar in single quotes at a cursor, and the cursor after it. -/
def singleQuoted? (c : Cursor) : Option (List Char × Cursor) :=
  quoted? '\'' (c.rest.length + 1) [] c.next

/-- The scalar in double quotes at a cursor, and the cursor after it. -/
def doubleQuoted? (c : Cursor) : Option (List Char × Cursor) :=
  quoted? '"' (c.rest.length + 1) [] c.next

/-! ## Blocks of lines -/

/-- What becomes of the line ends at the end of a block. -/
inductive Chomping where
  | strip
  | clip
  | keep
  deriving DecidableEq

/-- The chomping that a character asks for. -/
def chomping? (d : Char) : Option Chomping :=
  match d with
  | '+' => some .keep
  | '-' => some .strip
  | _ => none

/-- The indentation that a digit asks for. -/
def increment? (d : Char) : Option Nat := if d.isDigit then some (d.toNat - '0'.toNat) else none

/-- What stands after the mark of a block: its chomping and its indentation, in any order. -/
def blockHeader (c : Cursor) : Chomping × Option Nat × Cursor :=
  match c.head?.bind chomping? with
  | some chomping =>
    match c.next.head?.bind increment? with
    | some n => (chomping, some n, c.skip 2)
    | none => (chomping, none, c.next)
  | none =>
    match c.head?.bind increment? with
    | some n =>
      match c.next.head?.bind chomping? with
      | some chomping => (chomping, some n, c.skip 2)
      | none => (.clip, some n, c.next)
    | none => (.clip, none, c)

/-- Empty lines before a line of a block: their line ends, the widest indentation seen, and the
cursor after them. Without a known indentation, all blanks count as indentation. A tab must not
stand in the indentation. -/
def emptyLines? (indent : Option Nat) : Nat → List Char → Nat → Cursor →
    Option (List Char × Nat × Cursor)
  | 0, taken, widest, c => some (taken, widest, c)
  | n + 1, taken, widest, c =>
    let room := match indent with
      | some indent => indent - c.column
      | none => c.rest.length
    let c := c.skip ((c.rest.takeWhile (· == ' ')).take room).length
    let widest := max widest c.column
    let inside := match indent with
      | some indent => c.column < indent
      | none => true
    match c.head? with
    | some d =>
      if inside && d == '\t' then none
      else if isBreak d then emptyLines? indent n (taken ++ [d]) widest c.next
      else some (taken, widest, c)
    | none => some (taken, widest, c)

/-- What was read of a block. -/
structure BlockText where
  taken : List Char := []
  /-- The end of the last line. -/
  last : List Char := []
  /-- The ends of the empty lines after it. -/
  empty : List Char := []
  /-- Whether the last line began with a blank. -/
  indented : Bool := false

/-- The text before the next line of a block, which begins with a blank or not. A fold needs two
lines that do not begin with one. -/
def BlockText.joined (b : BlockText) (literal indented : Bool) : List Char :=
  if !literal && b.last == ['\n'] && !b.indented && !indented then
    b.taken ++ (if b.empty.isEmpty then [' '] else []) ++ b.empty
  else b.taken ++ b.last ++ b.empty

/-- The lines of a block at an indentation, and the cursor after them. -/
def blockLines? (literal : Bool) (indent : Nat) : Nat → BlockText → Cursor →
    Option (BlockText × Cursor)
  | 0, b, c => some (b, c)
  | n + 1, b, c =>
    if c.column != indent || c.atEnd then some (b, c)
    else do
      let indented := c.head?.any isBlank
      let joined := b.joined literal indented
      let (line, c) := c.takeWhile fun d => !isBreak d
      let last := c.rest.take 1
      let (empty, _, c) ← emptyLines? (some indent) (c.rest.length + 1) [] 0 c.next
      blockLines? literal indent n { taken := joined ++ line, last, empty, indented } c

/-- The block at a cursor, and the cursor after it. The lines stand at the column `lowest` or after
it. -/
def block? (literal : Bool) (lowest : Nat) (c : Cursor) : Option (List Char × Cursor) := do
  let (chomping, increment, c) := blockHeader c.next
  if increment == some 0 then none
  else
    let c := c.dropWhile isBlank
    let c := if c.head? == some '#' then c.dropLine else c
    if !c.atLineEnd then none
    else
      let known := increment.map fun n => lowest - 1 + n
      let (empty, widest, c) ← emptyLines? known (c.rest.length + 1) [] 0 c.next
      let indent := known.getD (max (max widest lowest) 1)
      let (b, c) ← blockLines? literal indent (c.rest.length + 1) { empty } c
      let kept :=
        match chomping with
        | .strip => []
        | .clip => b.last
        | .keep => b.last ++ b.empty
      some (b.taken ++ kept, c)

end AdLint.Yaml
