import AdLint.Source.Token

/-!
# Syntax trees

A source is read into a tree of its tokens. Inner nodes are the phrases of the language, each with
the role it plays in the phrase around it. Comments are nodes too: a comment belongs to the smallest
phrase that holds both the token before it and the token after it.

The span of a phrase is fixed by its parts: it starts where the first one starts and stops where the
last one stops. So the spans of the parts of a phrase lie in the span of the phrase, one after the
other.

## Main definitions

* `Tree`: a node with its kind, role, span and parts
* `Tree.phrase`: the phrase made of a forest, with the comments before it
* `Tree.part?`: the part that plays a role
* `Tree.fold`: a value for every node, made from the values of its parts
-/

namespace AdLint

/-- The role that a part plays in a phrase. -/
inductive Role where
  | plain
  | name
  | type
  | body
  | value
  | receiver
  | arguments
  | operator
  | operand
  | left
  | right
  | key
  deriving DecidableEq, Repr, Inhabited

/-- A node of a syntax tree. -/
inductive Tree (κ : Type) where
  | node (kind : κ) (role : Role) (span : Span) (parts : List (Tree κ))
  deriving Repr

/-- Nodes that stand next to one another. -/
abbrev Forest (κ : Type) := List (Tree κ)

/-- The kinds of nodes of a language: there are plain tokens and comments among them. -/
class NodeKind (κ : Type) where
  token : κ
  comment : κ
  isToken : κ → Bool
  isComment : κ → Bool

namespace Tree

variable {κ : Type}

/-- The kind of a node. -/
def kind : Tree κ → κ
  | node kind _ _ _ => kind

/-- The role of a node. -/
def role : Tree κ → Role
  | node _ role _ _ => role

/-- The span of a node. -/
def span : Tree κ → Span
  | node _ _ span _ => span

/-- The parts of a node. -/
def parts : Tree κ → Forest κ
  | node _ _ _ parts => parts

mutual

/-- A value for a node, made from its kind, its span and its parts with their values. -/
def fold {α : Type} (f : κ → Span → List (Tree κ × α) → α) : Tree κ → α
  | node kind _ span parts => f kind span (foldParts f parts)

/-- The nodes of a forest with their values. -/
def foldParts {α : Type} (f : κ → Span → List (Tree κ × α) → α) : List (Tree κ) → List (Tree κ × α)
  | [] => []
  | t :: ts => (t, fold f t) :: foldParts f ts

end

/-- The node in another role. -/
def inRole (role : Role) : Tree κ → Tree κ
  | node kind _ span parts => node kind role span parts

variable [NodeKind κ]

/-- Whether a node is a comment. -/
def isComment (t : Tree κ) : Bool := NodeKind.isComment t.kind

/-- Whether a node is a phrase or a comment, and not a plain token. -/
def isNamed (t : Tree κ) : Bool := !NodeKind.isToken t.kind

/-- The parts that are not plain tokens. -/
def namedParts (t : Tree κ) : Forest κ := t.parts.filter isNamed

/-- The first part that plays a role. -/
def part? (t : Tree κ) (role : Role) : Option (Tree κ) :=
  t.parts.find? fun part => part.role == role

/-- The span from the first node of a forest to the last. -/
def spanOf (first : Tree κ) (rest : Forest κ) : Span :=
  ⟨first.span.start, ((first :: rest).getLast?.getD first).span.stop⟩

/-- The phrase made of a forest. Comments at the start of the forest stay before the phrase. -/
def phrase (kind : κ) (forest : Forest κ) : Forest κ :=
  let comments := forest.takeWhile isComment
  match forest.dropWhile isComment with
  | [] => comments
  | first :: rest => comments ++ [node kind .plain (spanOf first rest) (first :: rest)]

/-- The forest with its last node in a role. -/
def labelled (role : Role) (forest : Forest κ) : Forest κ :=
  forest.mapIdx fun i t => if i + 1 == forest.length then t.inRole role else t

/-- The leaf of a token, with the comments before it. -/
def leaf (kind : κ) (t : Token) : Forest κ :=
  t.comments.map (fun span => node NodeKind.comment .plain span []) ++
    [node kind .plain t.span []]

end Tree

end AdLint
