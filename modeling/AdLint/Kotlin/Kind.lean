import AdLint.Declaration
import AdLint.Source.Tree

/-!
# The phrases of Kotlin

The phrases that the outline of a Kotlin file tells apart. All other phrases are `other`: only what
they hold matters.
-/

namespace AdLint.Kotlin

/-- The kinds of nodes in the tree of a Kotlin file. -/
inductive Kind where
  | token
  | comment
  | packageClause
  | importClause
  /-- Identifiers joined by dots, in a clause. -/
  | path
  /-- The star of an import of everything. -/
  | star
  /-- The name after `as` in an import. -/
  | importAlias
  /-- An identifier. -/
  | name
  /-- The identifier of a type. -/
  | typeName
  /-- A type without marks: a name with its type arguments. -/
  | userType
  /-- A type of another form: nullable, of a function, in parentheses. -/
  | otherType
  | classDeclaration
  | objectDeclaration
  | companion
  | primaryConstructor
  | classParameter
  /-- The keyword `val` or `var`. -/
  | binding
  | delegation
  | constructorCall
  /-- The body of a class or an object. -/
  | classBody
  | function
  | functionBody
  | property
  /-- The name and the type of a property. -/
  | variable
  /-- What a property leaves its values to. -/
  | delegate
  | modifiers
  | modifier
  | annot
  | integer
  | text
  | truth
  /-- A literal of another kind. -/
  | literal
  | collection
  /-- A bracket or a comma in a collection that has no item behind it. -/
  | gap
  | navigation
  | navigationSuffix
  | call
  | callSuffix
  | valueArguments
  | valueArgument
  /-- A lambda, an anonymous function or a callable reference. -/
  | lambda
  | objectLiteral
  | parenthesized
  | cast
  /-- An operand after an operator, an annotation or a label. -/
  | signed
  | additive
  | other
  deriving DecidableEq, Repr, Inhabited

instance : NodeKind Kind where
  token := .token
  comment := .comment
  isToken := fun k => k == .token
  isComment := fun k => k == .comment

/-- A node in the tree of a Kotlin file. -/
abbrev Node := Tree Kind

end AdLint.Kotlin
