import AdLint.Expr
import AdLint.Java.Kind
import AdLint.Source.Literal

/-!
# What Java expressions mean to the checks

Every node of a tree has an expression, made from the expressions of its parts. Comments are parts
like others: one among the items of a list is an item of its own.

## Main definitions

* `expr`: the expression of a node
* `annotOf`: the annotation that a node writes
-/

namespace AdLint.Java

/-- Parts of a node, each with its expression. -/
abbrev Parts := List (Node × Expr)

namespace Parts

/-- The part that plays a role. -/
def inRole? (parts : Parts) (role : Role) : Option (Node × Expr) :=
  parts.find? fun part => part.1.role == role

/-- The parts that are not plain tokens. -/
def named (parts : Parts) : Parts := parts.filter fun part => part.1.isNamed

/-- The expressions of the parts. -/
def exprs (parts : Parts) : List Expr := parts.map fun part => part.2

/-- The text of the part that plays a role, blanks removed. -/
def compactText? (s : Source) (parts : Parts) (role : Role) : Option String :=
  (parts.inRole? role).map fun part => Text.compact (s.slice part.1.span)

end Parts

/-- The name of a named argument. -/
def keyOf (s : Source) (pair : Node) : Option String :=
  (pair.part? .key).map fun key => s.slice key.span

/-- An argument of an annotation, with its expression. -/
def argumentOf (s : Source) (node : Node) (value : Expr) : Argument :=
  { name := if node.kind == .pair then keyOf s node else none
    value
    location := s.locate node.span node.span }

/-- The annotation that a node with these parts writes. -/
def annotOf (s : Source) (span : Span) (parts : Parts) : Annot :=
  { name := (parts.compactText? s .name).getD ""
    arguments :=
      match parts.inRole? .arguments with
      | some (list, value) => List.zipWith (argumentOf s) list.namedParts value.items
      | none => []
    location := s.locate span span }

/-- The expression of a node, made from the expressions of its parts. -/
def exprOf (s : Source) (kind : Kind) (span : Span) (parts : Parts) : Expr :=
  let written := s.slice span
  let simple := fun (text : String) => TypeName.simple (Text.compact text)
  match kind with
  | .integer => ((Literal.integer? written).map Expr.int).getD (.literal written)
  | .text => .text (Literal.unquote written)
  | .truth value => .truth value
  | .null => .null
  | .literal => .literal written
  | .name => .reference (Text.compact written)
  | .classLiteral =>
    .classLiteral (simple ((parts.named.head?.map fun part => s.slice part.1.span).getD written))
  | .array | .argumentList => .array parts.named.exprs
  | .arrayCreation =>
    match parts.find? fun part => part.1.kind == .array with
    | some (_, items) => items
    | none => .create (((parts.inRole? .type).map fun part => s.slice part.1.span).getD "")
  | .annot => .annot (annotOf s span parts)
  | .pair => ((parts.inRole? .value).map fun part => part.2).getD (.other "")
  | .invocation =>
    .call (parts.compactText? s .receiver)
      (((parts.inRole? .name).map fun part => s.slice part.1.span).getD "")
  | .creation =>
    .create (((parts.inRole? .type).map fun part => simple (s.slice part.1.span)).getD "")
  | .lambda => .lambda
  | .parenthesized => parts.named.exprs.headD (.other written)
  | .cast => ((parts.inRole? .value).map fun part => part.2).getD (.other written)
  | .unary =>
    .signed written ((parts.inRole? .operator).map fun part => s.slice part.1.span)
      ((parts.inRole? .operand).map fun part => part.2)
  | .binary =>
    match parts.inRole? .operator, parts.inRole? .left, parts.inRole? .right with
    | some (operator, _), some (_, left), some (_, right) =>
      if s.slice operator.span == "+" then .concat (left.operands ++ right.operands)
      else .other written
    | _, _, _ => .other written
  | _ => .other written

/-- The expression of a node. -/
def expr (s : Source) (node : Node) : Expr := node.fold (exprOf s)

/-- The annotation that a node writes. -/
def annot (s : Source) (node : Node) : Annot :=
  annotOf s node.span (Tree.foldParts (exprOf s) node.parts)

end AdLint.Java
