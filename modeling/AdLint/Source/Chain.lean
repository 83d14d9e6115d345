import AdLint.Source.Reader

/-!
# Binary operators

A chain of operands with operators between them is first read flat. It is then joined level by
level, from the operators that bind tightest to those that bind loosest. On one level operators join
from left to right.
-/

namespace AdLint

/-- An operator and the operand to its right. -/
structure Link (κ : Type) where
  /-- How tightly the operator binds. -/
  level : Nat
  /-- The phrase that the operator makes of the operand to its left, itself and the operand to its
  right. -/
  join : Forest κ → Forest κ → Forest κ → Forest κ
  operator : Forest κ
  operand : Forest κ

/-- The link whose operator and operand are read one after the other. -/
def Link.read {κ : Type} (level : Nat) (join : Forest κ → Forest κ → Forest κ → Forest κ)
    (operator operand : Reader κ) (ts : List Token) : Option (Link κ × List Token) := do
  let (op, rest) ← operator.run ts
  let (right, rest) ← operand.run rest
  some ({ level, join, operator := op, operand := right }, rest)

/-- An operand, then operators with operands. -/
structure Chain (κ : Type) where
  first : Forest κ
  links : List (Link κ) := []

namespace Chain

variable {κ : Type}

/-- Joins the operators of one level with their operands. -/
def joinLevel (level : Nat) : Forest κ → List (Link κ) → Chain κ
  | first, [] => { first }
  | first, link :: links =>
    if link.level == level then
      joinLevel level (link.join first link.operator link.operand) links
    else
      let rest := joinLevel level link.operand links
      { first, links := { link with operand := rest.first } :: rest.links }

/-- Joins the operators of all levels from `level` down to 1. -/
def joinAll : Nat → Chain κ → Forest κ
  | 0, chain => chain.first
  | level + 1, chain => joinAll level (joinLevel (level + 1) chain.first chain.links)

/-- Reads links as long as there is an operator, at most `n` of them. -/
def readLinks (link : List Token → Option (Link κ × List Token)) :
    Nat → List Token → List (Link κ) × List Token
  | 0, ts => ([], ts)
  | n + 1, ts =>
    match link ts with
    | some (l, rest) =>
      let (links, rest) := readLinks link n rest
      (l :: links, rest)
    | none => ([], ts)

/-- The reader of a chain, joined by levels of which `top` is the highest. -/
def reader (top : Nat) (operand : Reader κ) (link : List Token → Option (Link κ × List Token)) :
    Reader κ :=
  ⟨fun ts => do
    let (first, rest) ← operand.run ts
    let (links, rest) := readLinks link rest.length rest
    some (joinAll top { first, links }, rest)⟩

end Chain

end AdLint
