import AdLint.Pattern.Basic

/-!
# Reading patterns

The written form of patterns: alternatives, groups, repetition, character classes, escapes and
flags. Look-around and back references are not part of it. A text that breaks a rule of the written
form is no pattern.

Every step of a reader consumes a character, so the length of the text bounds the steps.

## Main definitions

* `Pattern.parse?`: the pattern that a text writes
-/

namespace AdLint.Pattern

/-- The flags in force where a part of a pattern is read. -/
structure Flags where
  ignoreCase : Bool := false
  multiLine : Bool := false
  dotAll : Bool := false
  verbose : Bool := false
  ascii : Bool := false
  deriving Repr, Inhabited

/-- Characters that have a meaning of their own in a pattern. -/
def isMeta (c : Char) : Bool := "\\.+*?()|[]\x7b\x7d^$#&-~".toList.contains c

/-- The value of a hexadecimal digit. -/
def hexDigit? (c : Char) : Option Nat :=
  if '0' ≤ c && c ≤ '9' then some (c.toNat - 48)
  else if 'a' ≤ c && c ≤ 'f' then some (c.toNat - 87)
  else if 'A' ≤ c && c ≤ 'F' then some (c.toNat - 55)
  else none

/-- The value of hexadecimal digits. -/
def hexValue? (cs : List Char) : Option Nat :=
  cs.foldlM (fun n c => (hexDigit? c).map fun d => 16 * n + d) 0

/-- The character with this number, if there is one. -/
def charOf? (n : Nat) : Option Char :=
  if n < 0xD800 || (0xDFFF < n && n < 0x110000) then some (Char.ofNat n) else none

/-- The character that a hexadecimal escape stands for, in braces or with a fixed number of
digits. -/
def hexEscape? (width : Nat) (cs : List Char) : Option (Char × List Char) :=
  match cs with
  | '\x7b' :: rest =>
    let digits := rest.takeWhile fun c => c != '\x7d'
    if digits.isEmpty || digits.length == rest.length then none
    else do
      let c ← (hexValue? digits).bind charOf?
      some (c, rest.drop (digits.length + 1))
  | cs =>
    if cs.length < width then none
    else do
      let c ← (hexValue? (cs.take width)).bind charOf?
      some (c, cs.drop width)

/-- The set of ASCII characters in both sets. -/
def asciiOnly (s : CharSet) : CharSet := .inter s (.range '\x00' '\x7f')

/-- The class that an escaped letter names. -/
def namedClass? (flags : Flags) (c : Char) : Option CharSet :=
  let lower? : Option CharSet :=
    match c.toLower with
    | 'd' => some .digit
    | 's' => some .blank
    | 'w' => some .word
    | _ => none
  lower?.map fun s =>
    let s := if flags.ascii then asciiOnly s else s
    if c.isUpper then .complement s else s

/-- The control character that an escaped letter names. -/
def controlChar? : Char → Option Char
  | 'a' => some '\x07'
  | 'f' => some '\x0c'
  | 't' => some '\t'
  | 'n' => some '\n'
  | 'r' => some '\r'
  | 'v' => some '\x0b'
  | _ => none

/-- The single character that an escape stands for; `cs` follows the backslash. -/
def charEscape? (cs : List Char) : Option (Char × List Char) :=
  match cs with
  | 'x' :: rest => hexEscape? 2 rest
  | 'u' :: rest => hexEscape? 4 rest
  | 'U' :: rest => hexEscape? 8 rest
  | c :: rest =>
    match controlChar? c with
    | some control => some (control, rest)
    | none =>
      if isMeta c || (c.toNat < 0x80 && !c.isAlphanum && c != '<' && c != '>') then some (c, rest)
      else none
  | [] => none

/-- The ASCII class with this name. -/
def asciiClass? (name : String) : Option CharSet :=
  let letters := CharSet.union (.range 'a' 'z') (.range 'A' 'Z')
  let alnum := CharSet.union letters (.range '0' '9')
  match name with
  | "alnum" => some alnum
  | "alpha" => some letters
  | "ascii" => some (.range '\x00' '\x7f')
  | "blank" => some (.ofList ['\t', ' '])
  | "cntrl" => some (.union (.range '\x00' '\x1f') (.single '\x7f'))
  | "digit" => some (.range '0' '9')
  | "graph" => some (.range '!' '~')
  | "lower" => some (.range 'a' 'z')
  | "print" => some (.range ' ' '~')
  | "punct" => some (.diff (.range '!' '~') alnum)
  | "space" => some (.ofList ['\t', '\n', '\x0b', '\x0c', '\r', ' '])
  | "upper" => some (.range 'A' 'Z')
  | "word" => some (.union alnum (.single '_'))
  | "xdigit" => some (.union (.range '0' '9') (.union (.range 'a' 'f') (.range 'A' 'F')))
  | _ => none

/-- A named ASCII class such as `[:alpha:]`, with or without a negation. -/
def bracketName? (cs : List Char) : Option (CharSet × List Char) :=
  match cs with
  | '[' :: ':' :: rest =>
    let (negated, rest) :=
      match rest with
      | '^' :: rest => (true, rest)
      | rest => (false, rest)
    let name := rest.takeWhile fun c => c != ':'
    match rest.drop name.length with
    | ':' :: ']' :: rest =>
      (asciiClass? (String.ofList name)).map fun s =>
        (if negated then .complement s else s, rest)
    | _ => none
  | _ => none

/-- The operators between the parts of a class. -/
def setOperator? : List Char → Option ((CharSet → CharSet → CharSet) × List Char)
  | '&' :: '&' :: rest => some (.inter, rest)
  | '-' :: '-' :: rest => some (.diff, rest)
  | '~' :: '~' :: rest =>
    some (fun a b => .union (.diff a b) (.diff b a), rest)
  | _ => none

/-- An end of a range in a class: a character, written plainly or escaped. -/
def rangeEnd? : List Char → Option (Char × List Char)
  | '\\' :: 'b' :: rest => some ('\x08', rest)
  | '\\' :: rest => charEscape? rest
  | c :: rest => some (c, rest)
  | [] => none

/-- The set as it is under the flags. -/
def underFlags (flags : Flags) (s : CharSet) : CharSet := if flags.ignoreCase then .folded s else s

/-- Characters without what a verbose pattern skips: blanks, and comments up to the end of the
line. The bound is the number of characters. -/
def skipLayout : Nat → List Char → List Char
  | 0, cs => cs
  | n + 1, cs =>
    match cs with
    | '#' :: rest => skipLayout n (rest.dropWhile fun c => c != '\n')
    | c :: rest => if Text.isBlank c then skipLayout n rest else cs
    | [] => []

/-- The rest after the layout that the flags allow. -/
def skip (flags : Flags) (cs : List Char) : List Char :=
  if flags.verbose then skipLayout cs.length cs else cs

mutual

/-- A class, after its opening bracket. -/
def readClass? (flags : Flags) : Nat → List Char → Option (CharSet × List Char)
  | 0, _ => none
  | n + 1, cs =>
    let (negated, cs) :=
      match cs with
      | '^' :: rest => (true, rest)
      | cs => (false, cs)
    let dashes := cs.takeWhile fun c => c == '-'
    let rest := cs.drop dashes.length
    let start : CharSet := if dashes.isEmpty then .none else .single '-'
    let (start, rest) :=
      match dashes, rest with
      | [], ']' :: rest => (CharSet.single ']', rest)
      | _, rest => (start, rest)
    (readItems? flags n start none rest).map fun (s, rest) =>
      let s := underFlags flags s
      (if negated then .complement s else s, rest)

/-- The items of a class: `items` holds those of the current operand, and `left` the operands before
it with the operator that joins them. -/
def readItems? (flags : Flags) :
    Nat → CharSet → Option (CharSet × (CharSet → CharSet → CharSet)) → List Char →
      Option (CharSet × List Char)
  | 0, _, _, _ => none
  | n + 1, items, left, cs =>
    let closed := match left with
      | some (a, op) => op a items
      | none => items
    match skip flags cs with
    | [] => none
    | ']' :: rest => some (closed, rest)
    | cs =>
      match setOperator? cs with
      | some (op, rest) => readItems? flags n .none (some (closed, op)) rest
      | none =>
        match bracketName? cs with
        | some (s, rest) => readItems? flags n (.union items s) left rest
        | none =>
          match cs with
          | '[' :: rest => do
            let (s, rest) ← readClass? flags n rest
            readItems? flags n (.union items s) left rest
          | cs =>
            let class? : Option (CharSet × List Char) :=
              match cs with
              | '\\' :: c :: rest => (namedClass? flags c).map fun s => (s, rest)
              | _ => none
            match class? with
            | some (s, rest) => readItems? flags n (.union items s) left rest
            | none => do
              let (first, rest) ← rangeEnd? cs
              match skip flags rest with
              | '-' :: rest' =>
                match skip flags rest' with
                | ']' :: _ => readItems? flags n (.union items (.single first)) left rest
                | '-' :: _ => readItems? flags n (.union items (.single first)) left rest
                | rest' => do
                  let (last, rest') ← rangeEnd? rest'
                  if last < first then none
                  else readItems? flags n (.union items (.range first last)) left rest'
              | _ => readItems? flags n (.union items (.single first)) left rest

end

/-- The decimal number at the start, blanks around it skipped. -/
def decimal? (cs : List Char) : Option (Nat × List Char) :=
  let cs := cs.dropWhile Text.isBlank
  let digits := cs.takeWhile Char.isDigit
  let rest := (cs.drop digits.length).dropWhile Text.isBlank
  if digits.isEmpty then none
  else
    let value := digits.foldl (fun n c => 10 * n + (c.toNat - 48)) 0
    if value < Nat.pow 2 32 then some (value, rest) else none

/-- The bounds of a counted repetition, after its opening brace. -/
def bounds? (cs : List Char) : Option ((Nat × Option Nat) × List Char) := do
  let (least, rest) ← decimal? cs
  match rest with
  | '\x7d' :: rest => some ((least, some least), rest)
  | ',' :: rest =>
    match rest.dropWhile Text.isBlank with
    | '\x7d' :: rest => some ((least, none), rest)
    | rest => do
      let (most, rest) ← decimal? rest
      match rest with
      | '\x7d' :: rest => if most < least then none else some ((least, some most), rest)
      | _ => none
  | _ => none

/-- A repetition mark at the start, with the question mark that makes it lazy. -/
def quantifier? (cs : List Char) : Option ((Nat × Option Nat) × List Char) :=
  let mark? : Option ((Nat × Option Nat) × List Char) :=
    match cs with
    | '*' :: rest => some ((0, none), rest)
    | '+' :: rest => some ((1, none), rest)
    | '?' :: rest => some ((0, some 1), rest)
    | '\x7b' :: rest => bounds? rest
    | _ => none
  mark?.map fun (bounds, rest) =>
    match rest with
    | '?' :: rest => (bounds, rest)
    | rest => (bounds, rest)

/-- Whether a character begins a repetition mark. -/
def beginsQuantifier (c : Char) : Bool := c == '*' || c == '+' || c == '?' || c == '\x7b'

/-- The flags that letters set and, after a dash, clear. The letters end at a colon or a closing
parenthesis. -/
def readFlags? (on : Bool) (seen : List Char) (flags : Flags) :
    List Char → Option (Flags × List Char)
  | [] => none
  | c :: rest =>
    if c == ':' || c == ')' then
      if seen.getLast? == some '-' then none else some (flags, c :: rest)
    else if seen.contains c then none
    else
      let next (flags : Flags) := readFlags? on (seen ++ [c]) flags rest
      match c with
      | 'i' => next { flags with ignoreCase := on }
      | 'm' => next { flags with multiLine := on }
      | 's' => next { flags with dotAll := on }
      | 'x' => next { flags with verbose := on }
      | 'u' => next { flags with ascii := !on }
      | 'U' | 'R' => next flags
      | '-' => if on then readFlags? false (seen ++ [c]) flags rest else none
      | _ => none

/-- The name of a group, up to its closing angle bracket. -/
def groupName? (cs : List Char) : Option (String × List Char) :=
  let name := cs.takeWhile fun c => c != '>'
  let rest := cs.drop name.length
  let first := name.head?.any fun c => Text.isWordChar c && !Text.isDecimalDigit c
  let others := name.all fun c => Text.isWordChar c || c == '.' || c == '[' || c == ']'
  match rest with
  | '>' :: rest => if first && others then some (String.ofList name, rest) else none
  | _ => none

/-- The pattern of items that follow one another. Setting flags is an item without a pattern; the
items are listed last first. -/
def joinItems (items : List (Option Pattern)) : Pattern :=
  items.foldl (fun p item => item.elim p fun q => .sequence q p) .empty

/-- The pattern of one of several branches. -/
def joinBranches (branches : List Pattern) (last : Pattern) : Pattern :=
  branches.foldr .choice last

/-- The assertion that an escaped letter stands for. -/
def escapedAssertion? (cs : List Char) : Option (Assertion × List Char) :=
  let braced (name : String) : Option (List Char) :=
    Text.afterStart? (('b' :: '\x7b' :: name.toList) ++ ['\x7d']) cs
  match braced "start", braced "end" with
  | some rest, _ => some (.wordStart, rest)
  | _, some rest => some (.wordEnd, rest)
  | none, none =>
    match cs with
    | 'A' :: rest => some (.textStart, rest)
    | 'z' :: rest => some (.textEnd, rest)
    | 'b' :: rest => some (.wordBoundary, rest)
    | 'B' :: rest => some (.noWordBoundary, rest)
    | '<' :: rest => some (.wordStart, rest)
    | '>' :: rest => some (.wordEnd, rest)
    | _ => none

/-- An item that is no group: a class, an escape, an assertion or a character. -/
def readAtom? (flags : Flags) (cs : List Char) : Option (Pattern × List Char) :=
  match cs with
  | '[' :: rest => (readClass? flags (2 * rest.length + 2) rest).map fun (s,
      rest) => (.chars s, rest)
  | '.' :: rest =>
    some (.chars (.complement (if flags.dotAll then .none else .single '\n')), rest)
  | '^' :: rest => some (.assertion (if flags.multiLine then .lineStart else .textStart), rest)
  | '$' :: rest => some (.assertion (if flags.multiLine then .lineEnd else .textEnd), rest)
  | '\\' :: rest =>
    match escapedAssertion? rest with
    | some (a, rest) => some (.assertion a, rest)
    | none =>
      match rest with
      | [] => none
      | c :: after =>
        match namedClass? flags c with
        | some s => some (.chars s, after)
        | none => (charEscape? rest).map fun (c, rest) =>
            (.chars (underFlags flags (.single c)), rest)
  | c :: rest => some (.chars (underFlags flags (.single c)), rest)
  | [] => none

/-- What a parenthesis opens. -/
inductive Opening where
  /-- A group with flags of its own; the names are those of the groups so far. -/
  | group (inner : Flags) (names : List String) (rest : List Char)
  /-- No group, but flags for the rest of the group around it. -/
  | flags (inner : Flags) (rest : List Char)

/-- The name of a group after its question mark, and the text after it. -/
def namedOpening? : List Char → Option (String × List Char)
  | 'P' :: '<' :: rest => groupName? rest
  | '<' :: rest => groupName? rest
  | _ => none

/-- What the text after a parenthesis opens. The name of a group must be new. -/
def opening? (flags : Flags) (names : List String) : List Char → Option Opening
  | '?' :: rest =>
    match namedOpening? rest with
    | some (name, rest) =>
      if names.contains name then none else some (.group flags (name :: names) rest)
    | none =>
      match readFlags? true [] flags rest with
      | some (inner, ':' :: after) => some (.group inner names after)
      | some (inner, ')' :: after) =>
        if rest.head? == some ')' then none else some (.flags inner after)
      | _ => none
  | rest => some (.group flags names rest)

/-- The branches of a group up to its closing parenthesis or the end of the text. `branches` holds
the finished ones, `items` those of the current one, last first, and `names` the names of groups
used so far. -/
def readGroup? : Nat → Flags → List String → List Pattern → List (Option Pattern) → List Char →
    Option (Pattern × List String × List Char)
  | 0, _, _, _, _, _ => none
  | n + 1, flags, names, branches, items, cs =>
    match skip flags cs with
    | [] => some (joinBranches branches (joinItems items), names, [])
    | c :: rest =>
      if c == ')' then some (joinBranches branches (joinItems items), names, c :: rest)
      else if c == '|' then readGroup? n flags names (branches ++ [joinItems items]) [] rest
      else if c == '(' then
        match opening? flags names rest with
        | some (.flags inner after) => readGroup? n inner names branches (none :: items) after
        | some (.group inner names after) =>
          match readGroup? n inner names [] [] after with
          | some (p, names, ')' :: rest) => readGroup? n flags names branches (some p :: items) rest
          | _ => none
        | none => none
      else if beginsQuantifier c then
        match quantifier? (c :: rest), items with
        | some ((least, most), rest), some p :: items =>
          readGroup? n flags names branches (some (.repeated p least most) :: items) rest
        | _, _ => none
      else
        match readAtom? flags (c :: rest) with
        | some (p, rest) => readGroup? n flags names branches (some p :: items) rest
        | none => none

/-- The pattern that a text writes. -/
def parse? (s : String) : Option Pattern :=
  match readGroup? (2 * s.length + 2) {} [] [] [] s.toList with
  | some (p, _, []) => some p
  | _ => none

end AdLint.Pattern
