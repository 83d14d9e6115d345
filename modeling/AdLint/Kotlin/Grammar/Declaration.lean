import AdLint.Kotlin.Grammar.Expression

/-!
# Grammar of Kotlin: statements and declarations

The rules are tied together in `grammar`, and `read` applies them to the tokens of a file.
-/

namespace AdLint.Kotlin.Grammar

open Reader

/-- A parameter of a primary constructor, which may declare a property. -/
def classParameter (self : Rules) : Rule :=
  phrase .classParameter
    (modifiers self ++ maybe (leafIf .binding fun t => t.reads "val" || t.reads "var") ++
      identifier ++ tok ":" ++ self .type ++ maybe (tok "=" ++ self (.expression .free)))

/-- The constructor in the head of a class. -/
def primaryConstructor (self : Rules) : Rule :=
  let word : Rule := onward .lines (modifiers self ++ tok "constructor")
  phrase .primaryConstructor
    (maybe word ++ tok "(" ++ commaList (classParameter self) ++ tok ")")

/-- The body of a class. -/
def classBody (self : Rules) : Rule :=
  phrase .classBody (tok "\x7b" ++ many (self .declaration <|> tok ";") ++ tok "\x7d")

/-- The body of an enumeration: its entries, then other members after a semicolon. -/
def enumBody (self : Rules) : Rule :=
  let entry : Rule :=
    phrase .other
      (modifiers self ++ identifier ++ maybe (self .valueArguments) ++ maybe (self .classBody))
  let members : Rule := tok ";" ++ many (self .declaration <|> tok ";")
  phrase .classBody (tok "\x7b" ++ commaList entry ++ maybe members ++ tok "\x7d")

/-- A class, an interface or an enumeration. -/
def classDeclaration (self : Rules) : Rule :=
  let rest (body : Rule) : Rule :=
    typeIdentifier ++ maybe (typeParameters self) ++ maybe (primaryConstructor self) ++
      maybe (delegations self .lines) ++ maybe (onward .lines (typeConstraints self)) ++ maybe body
  phrase .classDeclaration
    (modifiers self ++
      oneOf
        [ tok "enum" ++ tok "class" ++ rest (enumBody self),
          (tok "class" <|> (maybe (tok "fun") ++ tok "interface")) ++ rest (self .classBody) ])

/-- What an object has after its name. -/
def objectRest (self : Rules) : Rule := maybe (delegations self .lines) ++ maybe (self .classBody)

/-- An object with a name. -/
def objectDeclaration (self : Rules) : Rule :=
  phrase .objectDeclaration (modifiers self ++ tok "object" ++ typeIdentifier ++ objectRest self)

/-- The companion of a class. -/
def companion (self : Rules) : Rule :=
  phrase .companion
    (modifiers self ++ tok "companion" ++ modifiers self ++ tok "object" ++
      maybe (onward .lines typeIdentifier) ++ objectRest self)

/-- The type that an extension extends, with the dot after it. -/
def receiver (self : Rules) : Rule :=
  let part : Rule := typeIdentifier ++ maybe (typeArguments self)
  let isInner : List Token → Bool := leads (part ++ maybe questionMarks) (nextReads ".")
  let isNotLast : List Token → Bool := fun ts =>
    nextReads "." ts && leads (part ++ maybe questionMarks) (nextReads ".") (ts.drop 1)
  let named : Rule :=
    guarded isInner (phrase .userType (part ++ many (guarded isNotLast (tok "." ++ part))))
  let inner : Rule := phrase .otherType (tok "(" ++ self .type ++ tok ")")
  let type : Rule := named <|> inner
  let marked : Rule := phrase .otherType (type ++ questionMarks) <|> type
  maybe (many (self .annot) ++ marked ++ tok ".")

/-- A function with a name. -/
def function (self : Rules) : Rule :=
  phrase .function
    (modifiers self ++ tok "fun" ++ maybe (typeParameters self) ++ receiver self ++ identifier ++
      parameters self ++ maybe (tok ":" ++ self .type) ++
      maybe (onward .lines (typeConstraints self)) ++
      maybe (guarded (nextIsOneOf ["\x7b", "="]) (functionBody self)))

/-- An accessor of a property. -/
def accessor (self : Rules) : Rule :=
  let getter : Rule :=
    tok "get" ++ maybe (tok "(" ++ tok ")" ++ maybe (tok ":" ++ self .type) ++ functionBody self)
  let value : Rule := modifiers self ++ parameter self ++ maybe (tok ",")
  let setter : Rule :=
    tok "set" ++
      maybe (tok "(" ++ value ++ tok ")" ++ maybe (tok ":" ++ self .type) ++ functionBody self)
  phrase .other (modifiers self ++ (getter <|> setter))

/-- Whether an accessor comes next as a declaration of its own or behind a property. -/
def nextIsAccessorDeclaration (self : Rules) : List Token → Bool :=
  leads (modifiers self) fun ts =>
    nextIsAccessor ts ||
      (nextIsOneOf ["get", "set"] ts &&
        (ts.length ≤ 1 || ends .lines (ts.drop 1) || nextIsOneOf [";", "\x7d"] (ts.drop 1)))

/-- A property, with an accessor if one stands on its line. -/
def property (self : Rules) : Rule :=
  let value : Rule := tok "=" ++ self (.expression .lines)
  let delegate : Rule := onward .lines (phrase .delegate (tok "by" ++ self (.expression .lines)))
  let behind : Rule :=
    onward .lines (guarded (nextIsAccessorDeclaration self) (accessor self))
  phrase .property
    (modifiers self ++ leafIf .binding (fun t => t.reads "val" || t.reads "var") ++
      maybe (typeParameters self) ++ receiver self ++ (oneVariable self <|> variableList self) ++
      maybe (onward .lines (typeConstraints self)) ++ maybe (value <|> delegate) ++ maybe behind)

/-- Another name for a type. -/
def typeAlias (self : Rules) : Rule :=
  phrase .other
    (modifiers self ++ tok "typealias" ++ typeIdentifier ++
      maybe (typeParameters self) ++ tok "=" ++ self .type)

/-- A constructor in the body of a class. -/
def secondaryConstructor (self : Rules) : Rule :=
  let delegated : Rule := phrase .other (tokIn ["this", "super"] ++ self .valueArguments)
  phrase .other
    (modifiers self ++ tok "constructor" ++ parameters self ++ maybe (tok ":" ++ delegated) ++
      maybe (guarded (nextReads "\x7b") (block self)))

/-- Whether a function with a name comes next. A function without one is an expression, though its
parameters look like a receiver in parentheses up to where the name is missing. -/
def nextIsNamedFunction (self : Rules) : List Token → Bool :=
  leads (tok "fun" ++ maybe (typeParameters self) ++ receiver self ++ identifier) (nextReads "(")

/-- Whether a declaration comes next, to judge by what stands after the modifiers. -/
def nextIsDeclaration (self : Rules) (ts : List Token) : Bool :=
  leads (modifiers self)
    (fun rest =>
      nextIsOneOf ["class", "interface", "val", "var", "typealias"] rest ||
        nextAre ["enum", "class"] rest ||
        (nextReads "object" rest && nextIsIdentifier (rest.drop 1)) ||
        nextAre ["fun", "interface"] rest || nextIsNamedFunction self rest)
    ts || nextIsAccessorDeclaration self ts

/-- A declaration that may stand among statements. -/
def localDeclaration (self : Rules) : Rule :=
  ⟨fun ts =>
    let rule : Rule :=
      match (modifiers self).run ts with
      | some (_, rest) =>
        if nextIsOneOf ["class", "interface", "enum"] rest || nextAre ["fun", "interface"] rest then
          classDeclaration self
        else if nextReads "object" rest then objectDeclaration self
        else if nextReads "fun" rest then function self
        else if nextIsOneOf ["val", "var"] rest then property self
        else if nextReads "typealias" rest then typeAlias self
        else accessor self
      | none => fail
    rule.run ts⟩

/-- A member of a class. -/
def declaration (self : Rules) : Rule :=
  ⟨fun ts =>
    let rule : Rule :=
      match (modifiers self).run ts with
      | some (_, rest) =>
        if nextReads "companion" rest then companion self
        else if nextReads "init" rest then phrase .other (tok "init" ++ block self)
        else if nextReads "constructor" rest then secondaryConstructor self
        else localDeclaration self
      | none => fail
    rule.run ts⟩

/-- The operators of assignments. -/
def assignments : List String := ["=", "+=", "-=", "*=", "/=", "%="]

/-- A loop. -/
def loop (self : Rules) (layout : Layout) : Rule :=
  let body : Rule := branchBody self layout
  let range : Rule :=
    many (self .annot) ++ (oneVariable self <|> variableList self) ++ tok "in" ++
    self (.expression .free)
  let condition : Rule := tok "(" ++ self (.expression .free) ++ tok ")"
  phrase .other
    (oneOf
      [ tok "for" ++ tok "(" ++ range ++ tok ")" ++ maybe (tok ";" <|> body),
        tok "while" ++ condition ++ maybe (tok ";" <|> body),
        tok "do" ++ maybe (guarded (fun ts => !nextReads "while" ts) body) ++ tok "while" ++
          condition ])

/-- How to extend an expression by the value that is assigned to it. -/
def assignment? (self : Rules) (layout : Layout) (ts : List Token) :
    Option (Rule × (Forest Kind → Forest Kind → Forest Kind)) :=
  if nextIsOneOf assignments ts then
    some (tokIn assignments ++ self (.expression layout), fun left right =>
      Tree.phrase .other (left ++ right))
  else none

/-- A statement. -/
def statement (self : Rules) (layout : Layout) : Rule :=
  let label : Rule := leafIf .other isLabel
  let isLoop : List Token → Bool := nextIsOneOf ["for", "while", "do"]
  let isMarked : List Token → Bool := leads (many (label <|> self .annot)) isLoop
  let assigned : Rule := extending (self (.expression layout)) (assignment? self layout)
  branch (nextIsDeclaration self) (localDeclaration self)
    (branch isMarked (many (label <|> self .annot) ++ loop self layout) assigned)

/-- Statements up to a closing brace or the end. -/
def statements (self : Rules) : Rule := phrase .other (many (self (.statement .lines) <|> tok ";"))

/-- The rules of all goals, given the readers of all goals. -/
def grammar (self : Rules) : Rules
  | .type => type self
  | .annot => annot self
  | .expression layout => expression self layout
  | .operand layout => operand self layout
  | .valueArguments => valueArguments self
  | .statement layout => statement self layout
  | .statements => statements self
  | .declaration => declaration self
  | .classBody => classBody self

/-- What may stand at the top of a file: annotations of the file, clauses and statements. -/
def topLevel (self : Rules) : Rule :=
  let path : Rule := phrase .path (identifier ++ many (tok "." ++ identifier))
  let package : Rule := phrase .packageClause (tok "package" ++ path)
  let star : Rule := tok "." ++ leafIf .star fun t => t.reads "*"
  let localName : Rule := phrase .importAlias (tok "as" ++ typeIdentifier)
  let imported : Rule := phrase .importClause (tok "import" ++ path ++ maybe (star <|> localName))
  branch (nextReads "package") package
  (branch (nextReads "import") imported
  (branch (nextAre ["@", "file", ":"]) (phrase .other (self .annot))
    (self (.statement .lines) <|> tok ";")))

/-- The tree of a file, as the forest of what stands at its top. Reading stops where the rules do
not apply. The depth of references is bounded by the number of tokens: every rule that refers to
itself through others takes a token within a few references. -/
def read (ts : List Token) : Forest Kind :=
  match (many (topLevel (Reader.fix grammar (8 * ts.length + 8)))).run ts with
  | some (forest, _) => forest
  | none => []

end AdLint.Kotlin.Grammar
