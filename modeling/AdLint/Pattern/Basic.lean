import AdLint.Text.Blank
import AdLint.Text.WordClass

/-!
# Patterns

A pattern is a regular expression with character sets, repetition and assertions. It matches a text
when it matches some part of it, so the order in which alternatives are tried does not matter: the
meaning of a pattern at a position is the set of positions where a match that starts there can end.

## Main definitions

* `CharSet`, `CharSet.has`: sets of characters
* `Pattern`, `Pattern.ends`: patterns, and where their matches end
* `Pattern.isMatch`: whether a pattern matches some part of a text
-/

namespace AdLint

namespace Text

/-- The characters that differ from `c` only in case, itself included. -/
def orbit (c : Char) : List Char :=
  let target := fold c
  let n := target.toNat
  let listed := foldStretches.filterMap fun f =>
    let width := f.stretch.last - f.stretch.first
    if f.target ≤ n && n ≤ f.target + width && (n - f.target) % f.stretch.step == 0 then
      some (Char.ofNat (f.stretch.first + (n - f.target)))
    else none
  target :: target.toUpper :: listed

end Text

/-- A set of characters. -/
inductive CharSet where
  | range (first last : Char)
  | word
  | digit
  | blank
  | union (a b : CharSet)
  | inter (a b : CharSet)
  | diff (a b : CharSet)
  | complement (a : CharSet)
  /-- The characters that differ from one of the set only in case. -/
  | folded (a : CharSet)
  | none
  deriving Repr, Inhabited

namespace CharSet

/-- Membership in a set of characters. -/
def has : CharSet → Char → Bool
  | range first last, c => first ≤ c && c ≤ last
  | word, c => Text.isWordChar c
  | digit, c => Text.isDecimalDigit c
  | blank, c => Text.isBlank c
  | union a b, c => a.has c || b.has c
  | inter a b, c => a.has c && b.has c
  | diff a b, c => a.has c && !b.has c
  | complement a, c => !a.has c
  | folded a, c => (Text.orbit c).any a.has
  | none, _ => false

/-- The set of one character. -/
def single (c : Char) : CharSet := range c c

/-- The set of some characters. -/
def ofList (cs : List Char) : CharSet := cs.foldr (fun c s => union (single c) s) none

end CharSet

/-- What an assertion demands of the position it stands at. -/
inductive Assertion where
  | textStart
  | textEnd
  | lineStart
  | lineEnd
  | wordBoundary
  | noWordBoundary
  | wordStart
  | wordEnd
  deriving DecidableEq, Repr, Inhabited

/-- A pattern. -/
inductive Pattern where
  | empty
  | chars (set : CharSet)
  | sequence (a b : Pattern)
  | choice (a b : Pattern)
  /-- At least `least` times, and at most `most` times if that is given. -/
  | repeated (a : Pattern) (least : Nat) (most : Option Nat)
  | assertion (a : Assertion)
  deriving Repr, Inhabited

namespace Pattern

/-- The characters next to a position: the one before it and the one after it. -/
def neighbours (text : Array Char) (i : Nat) : Option Char × Option Char :=
  (if i == 0 then none else text[i - 1]?, text[i]?)

/-- Whether an assertion holds at a position. -/
def holds (text : Array Char) (i : Nat) (a : Assertion) : Bool :=
  let (before, after) := neighbours text i
  let wordBefore := before.any Text.isWordChar
  let wordAfter := after.any Text.isWordChar
  match a with
  | .textStart => before.isNone
  | .textEnd => after.isNone
  | .lineStart => before.isNone || before == some '\n'
  | .lineEnd => after.isNone || after == some '\n'
  | .wordBoundary => wordBefore != wordAfter
  | .noWordBoundary => wordBefore == wordAfter
  | .wordStart => !wordBefore && wordAfter
  | .wordEnd => wordBefore && !wordAfter

/-- The positions without repetitions. -/
def positions (is : List Nat) : List Nat := is.eraseDups

/-- The positions reached from the given ones by exactly `n` steps. -/
def after (step : Nat → List Nat) : Nat → List Nat → List Nat
  | 0, is => is
  | n + 1, is => after step n (positions (is.flatMap step))

/-- The positions reached from the given ones by at most `n` steps. -/
def within (step : Nat → List Nat) : Nat → List Nat → List Nat
  | 0, is => is
  | n + 1, is => within step n (positions (is ++ is.flatMap step))

/-- The positions where a match that starts at `i` can end. Without an upper bound on a repetition,
as many steps as the text has positions reach them all. -/
def ends (text : Array Char) : Pattern → Nat → List Nat
  | empty, i => [i]
  | chars set, i => if text[i]?.any set.has then [i + 1] else []
  | sequence a b, i => positions ((a.ends text i).flatMap (b.ends text))
  | choice a b, i => positions (a.ends text i ++ b.ends text i)
  | repeated a least most, i =>
    within (a.ends text) (most.elim (text.size + 1) fun m => min (m - least) (text.size + 1))
      (after (a.ends text) least [i])
  | assertion a, i => if holds text i a then [i] else []

/-- Whether a pattern matches some part of a text. -/
def isMatch (p : Pattern) (s : String) : Bool :=
  let text := s.toList.toArray
  (List.range (text.size + 1)).any fun i => !(p.ends text i).isEmpty

end Pattern

end AdLint
