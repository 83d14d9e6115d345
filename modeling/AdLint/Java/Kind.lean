import AdLint.Declaration
import AdLint.Source.Tree

/-!
# The phrases of Java

The phrases that the outline of a Java file tells apart. All other phrases are `other`: only what
they hold matters.
-/

namespace AdLint.Java

/-- The kinds of nodes in the tree of a Java file. -/
inductive Kind where
  | token
  | comment
  | packageClause
  | importClause
  /-- The star of an import of everything. -/
  | star
  /-- An identifier, or identifiers joined by dots. -/
  | name
  | typeDeclaration (kind : DeclarationKind)
  | superclass
  | interfaces
  | typeList
  | field
  | declarator
  /-- A method or a constructor. -/
  | method
  | modifiers
  | annot
  /-- Arguments in parentheses. -/
  | argumentList
  /-- A named argument of an annotation. -/
  | pair
  | integer
  | text
  | truth (value : Bool)
  | null
  /-- A literal of another kind. -/
  | literal
  | classLiteral
  | array
  | arrayCreation
  | invocation
  | creation
  /-- A lambda expression or a method reference. -/
  | lambda
  | parenthesized
  | cast
  | unary
  | binary
  | other
  deriving DecidableEq, Repr, Inhabited

instance : NodeKind Kind where
  token := .token
  comment := .comment
  isToken := fun k => k == .token
  isComment := fun k => k == .comment

/-- A node in the tree of a Java file. -/
abbrev Node := Tree Kind

end AdLint.Java
