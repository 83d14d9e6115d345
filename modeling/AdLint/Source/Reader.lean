import AdLint.Source.Tree

/-!
# Readers

A reader takes tokens from the front of a list and returns the forest it made of them with the
tokens that are left, or fails. Readers are put together by sequence (`++`) and ordered choice
(`<|>`), so that a grammar reads like its rules.

A language has finitely many rules that refer to one another. They are tied together by
`Reader.fix`, which follows references to a bounded depth; the number of tokens bounds the depth
that any text needs.

## Main definitions

* `Reader`: a reader, with sequence and choice
* `Reader.many`, `Reader.sepBy`, `Reader.maybe`: repetition
* `Reader.phrase`, `Reader.as`: naming what was read
* `Reader.fix`: readers that refer to one another
-/

namespace AdLint

/-- A reader of forests from tokens. -/
structure Reader (κ : Type) where
  run : List Token → Option (Forest κ × List Token)

namespace Reader

variable {κ : Type}

/-- The reader that takes nothing. -/
def nothing : Reader κ := ⟨fun ts => some ([], ts)⟩

/-- The reader that fails. -/
def fail : Reader κ := ⟨fun _ => none⟩

/-- One reader after the other. -/
def andThen (a b : Reader κ) : Reader κ :=
  ⟨fun ts => do
    let (xs, ts) ← a.run ts
    let (ys, ts) ← b.run ts
    some (xs ++ ys, ts)⟩

/-- The first reader, or the second if the first fails. -/
def orTry (a : Reader κ) (b : Unit → Reader κ) : Reader κ :=
  ⟨fun ts => (a.run ts).or ((b ()).run ts)⟩

instance : Append (Reader κ) := ⟨andThen⟩

instance : OrElse (Reader κ) := ⟨orTry⟩

instance : Inhabited (Reader κ) := ⟨fail⟩

/-- The first of some readers that does not fail. -/
def oneOf (readers : List (Reader κ)) : Reader κ :=
  ⟨fun ts => readers.findSome? fun r => r.run ts⟩

/-- The reader, or nothing if it fails. -/
def maybe (r : Reader κ) : Reader κ := ⟨fun ts => (r.run ts).or (some ([], ts))⟩

/-- The reader if the next tokens satisfy a condition. -/
def guarded (condition : List Token → Bool) (r : Reader κ) : Reader κ :=
  ⟨fun ts => if condition ts then r.run ts else none⟩

/-- One reader if the next tokens satisfy a condition, and another one if not. -/
def branch (condition : List Token → Bool) (yes no : Reader κ) : Reader κ :=
  ⟨fun ts => if condition ts then yes.run ts else no.run ts⟩

/-- The reader as often as it takes a token, at most `n` times. -/
def repeatUpTo (r : Reader κ) : Nat → List Token → Forest κ × List Token
  | 0, ts => ([], ts)
  | n + 1, ts =>
    match r.run ts with
    | some (xs, rest) =>
      if rest.length < ts.length then
        let (ys, rest) := repeatUpTo r n rest
        (xs ++ ys, rest)
      else ([], ts)
    | none => ([], ts)

/-- The reader as often as it takes a token. -/
def many (r : Reader κ) : Reader κ := ⟨fun ts => some (repeatUpTo r ts.length ts)⟩

/-- The reader at least once. -/
def many1 (r : Reader κ) : Reader κ := r ++ many r

/-- The reader at least once, with a separator between. -/
def sepBy1 (r sep : Reader κ) : Reader κ := r ++ many (sep ++ r)

/-- The reader any number of times, with a separator between. -/
def sepBy (r sep : Reader κ) : Reader κ := maybe (sepBy1 r sep)

/-- Extends what was read by further readers as long as one applies: `step` gives the reader to
apply and how to join its forest to the one before. The bound is the number of tokens. -/
def extendUpTo (step : List Token → Option (Reader κ × (Forest κ → Forest κ → Forest κ))) :
    Nat → Forest κ → List Token → Forest κ × List Token
  | 0, xs, ts => (xs, ts)
  | n + 1, xs, ts =>
    match step ts with
    | none => (xs, ts)
    | some (r, join) =>
      match r.run ts with
      | some (ys, rest) => extendUpTo step n (join xs ys) rest
      | none => (xs, ts)

/-- The reader, extended to the right as long as a step applies. -/
def extending (r : Reader κ)
    (step : List Token → Option (Reader κ × (Forest κ → Forest κ → Forest κ))) : Reader κ :=
  ⟨fun ts => do
    let (xs, rest) ← r.run ts
    some (extendUpTo step rest.length xs rest)⟩

variable [NodeKind κ]

/-- The phrase of a kind made of what a reader takes. -/
def phrase (kind : κ) (r : Reader κ) : Reader κ :=
  ⟨fun ts => (r.run ts).map fun (xs, rest) => (Tree.phrase kind xs, rest)⟩

/-- What a reader takes, in a role. -/
def as (role : Role) (r : Reader κ) : Reader κ :=
  ⟨fun ts => (r.run ts).map fun (xs, rest) => (Tree.labelled role xs, rest)⟩

/-- One token that satisfies a condition, as a leaf of a kind. -/
def leafIf (kind : κ) (condition : Token → Bool) : Reader κ :=
  ⟨fun
    | t :: rest => if condition t then some (Tree.leaf kind t, rest) else none
    | [] => none⟩

/-- One keyword or mark, as a plain token. -/
def tok (text : String) : Reader κ := leafIf NodeKind.token fun t => t.reads text

/-- One of some keywords or marks, as a plain token. -/
def tokIn (texts : List String) : Reader κ :=
  leafIf NodeKind.token fun t => (t.kind == .word || t.kind == .mark) && texts.contains t.text

/-- Readers that refer to one another through the rules of a grammar, followed to a depth. -/
def fix {γ : Type} (rules : (γ → Reader κ) → γ → Reader κ) : Nat → γ → Reader κ
  | 0, _ => fail
  | n + 1, g => ⟨fun ts => (rules (fix rules n) g).run ts⟩

end Reader

/-- Whether the next token is this keyword or mark. -/
def nextReads (text : String) : List Token → Bool
  | t :: _ => t.reads text
  | [] => false

/-- Whether the next tokens are these keywords or marks. -/
def nextAre : List String → List Token → Bool
  | [], _ => true
  | text :: texts, t :: ts => t.reads text && nextAre texts ts
  | _ :: _, [] => false

end AdLint
