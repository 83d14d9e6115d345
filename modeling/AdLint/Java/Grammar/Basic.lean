import AdLint.Java.Kind
import AdLint.Source.Chain

/-!
# Grammar of Java: goals, names and types

The rules of the grammar refer to one another through a goal. A rule is a reader that is given the
readers of all goals.
-/

namespace AdLint.Java.Grammar

open Reader

/-- What a rule can refer to. -/
inductive Goal where
  /-- A type, with or without annotations before it. -/
  | type
  /-- A type without annotations before it. -/
  | bareType
  | annot
  /-- The value of an annotation's argument. -/
  | elementValue
  | expression
  /-- An operand of a binary operator. -/
  | operand
  /-- The value of a variable: an expression, or items in braces. -/
  | variableValue
  | arguments
  | parameters
  | pattern
  | block
  | statement
  | member
  | classBody
  deriving DecidableEq, Repr

/-- The readers of all goals. -/
abbrev Rules := Goal → Reader Kind

/-- A reader of Java. -/
abbrev Rule := Reader Kind

/-- Words that are never identifiers. -/
def reserved : List String :=
  ["abstract", "assert", "boolean", "break", "byte", "case", "catch", "char", "class", "continue",
    "default", "do", "double", "else", "enum", "extends", "final", "finally", "float", "for", "if",
    "implements", "import", "instanceof", "int", "interface", "long", "native", "new", "package",
    "private", "protected", "public", "return", "short", "static", "strictfp", "super", "switch",
    "synchronized", "this", "throw", "throws", "transient", "try", "void", "volatile",
    "while", "true", "false", "null", "non-sealed"]

/-- The types that are not declared anywhere. -/
def primitives : List String :=
  ["byte", "short", "int", "long", "char", "float", "double", "boolean", "void"]

/-- Whether a token is an identifier. -/
def isIdentifier (t : Token) : Bool := t.kind == .word && !reserved.contains t.text

/-- Whether the next token is an identifier. -/
def nextIsIdentifier : List Token → Bool
  | t :: _ => isIdentifier t
  | [] => false

/-- Whether the next token satisfies a condition. -/
def nextIs (condition : Token → Bool) : List Token → Bool
  | t :: _ => condition t
  | [] => false

/-- Whether a reader succeeds and leaves tokens that satisfy a condition. -/
def leads (r : Rule) (condition : List Token → Bool) (ts : List Token) : Bool :=
  match r.run ts with
  | some (_, rest) => condition rest
  | none => false

/-- A keyword, as a phrase. -/
def keyword (kind : Kind) (text : String) : Rule := leafIf kind fun t => t.reads text

/-- An identifier. -/
def identifier : Rule := leafIf .name isIdentifier

/-- Identifiers joined by dots. -/
def dottedName : Rule := phrase .name (identifier ++ many (tok "." ++ identifier))

/-- Items with commas between them. -/
def commaList (r : Rule) : Rule := sepBy r (tok ",")

/-- Type arguments in angle brackets. -/
def typeArguments (self : Rules) : Rule :=
  let bound : Rule := tokIn ["extends", "super"] ++ self .type
  let wildcard : Rule := phrase .other (many (self .annot) ++ tok "?" ++ maybe bound)
  phrase .other (tok "<" ++ commaList (wildcard <|> self .type) ++ tok ">")

/-- A type that is not an array. -/
def simpleType (self : Rules) : Rule :=
  let primitive : Rule := leafIf .other fun t => t.kind == .word && primitives.contains t.text
  let part : Rule := identifier ++ maybe (typeArguments self)
  primitive <|> phrase .other (part ++ many (tok "." ++ many (self .annot) ++ part))

/-- Empty pairs of square brackets. -/
def dimensions (self : Rules) : Rule := many (many (self .annot) ++ tok "[" ++ tok "]")

/-- A type without annotations before it. -/
def bareType (self : Rules) : Rule := phrase .other (simpleType self ++ dimensions self)

/-- A type. -/
def type (self : Rules) : Rule := phrase .other (many (self .annot) ++ self .bareType)

/-- A comma list of types. -/
def typeList (self : Rules) : Rule := phrase .typeList (sepBy1 (self .type) (tok ","))

/-- Type parameters in angle brackets. -/
def typeParameters (self : Rules) : Rule :=
  let bound : Rule := tok "extends" ++ sepBy1 (self .type) (tok "&")
  let parameter : Rule := phrase .other (many (self .annot) ++ identifier ++ maybe bound)
  phrase .other (tok "<" ++ commaList parameter ++ tok ">")

/-- The value of an annotation's argument: an expression, an annotation or items in braces. -/
def elementValue (self : Rules) : Rule :=
  let items : Rule := commaList (self .elementValue) ++ maybe (tok ",")
  branch (nextReads "\x7b") (phrase .array (tok "\x7b" ++ items ++ tok "\x7d"))
    (branch (nextReads "@") (self .annot) (self .expression))

/-- An annotation. -/
def annot (self : Rules) : Rule :=
  let pair : Rule := phrase .pair (as .key identifier ++ tok "=" ++ as .value (self .elementValue))
  let isPair : List Token → Bool := fun ts => nextIsIdentifier ts && nextReads "=" (ts.drop 1)
  let list : Rule :=
    branch (nextReads ")") nothing (branch isPair (commaList pair) (self .elementValue))
  phrase .annot
    (tok "@" ++ as .name dottedName ++
      maybe (as .arguments (phrase .argumentList (tok "(" ++ list ++ tok ")"))))

/-- The keywords that may stand before a declaration. -/
def modifierWords : List String :=
  ["public", "protected", "private", "abstract", "static", "final", "strictfp", "default",
    "synchronized", "native", "transient", "volatile", "non-sealed"]

/-- The annotations and keywords before a declaration, if there are any. The word `sealed` is a
keyword only where another word follows. -/
def modifiers (self : Rules) : Rule :=
  let isSealed : List Token → Bool := fun ts =>
    nextReads "sealed" ts && nextIs (fun t => t.kind == .word && t.text != "instanceof") (ts.drop 1)
  let one : Rule := self .annot <|> tokIn modifierWords <|> guarded isSealed (tok "sealed")
  maybe (phrase .modifiers (many1 one))

/-- A variable's name, with the square brackets after it. -/
def variableName (self : Rules) : Rule := as .name identifier ++ dimensions self

/-- A variable's name and its value, if it has one. -/
def declarator (self : Rules) : Rule :=
  phrase .declarator
    (variableName self ++ maybe (tok "=" ++ as .value (self .variableValue)))

/-- A comma list of declarators. -/
def declarators (self : Rules) : Rule := sepBy1 (declarator self) (tok ",")

/-- The value of a variable: an expression, or items in braces. -/
def variableValue (self : Rules) : Rule :=
  let items : Rule := commaList (self .variableValue) ++ maybe (tok ",")
  branch (nextReads "\x7b") (phrase .array (tok "\x7b" ++ items ++ tok "\x7d")) (self .expression)

/-- The parameters of a method. -/
def parameters (self : Rules) : Rule :=
  let receiver : Rule :=
    phrase .other
      (many (self .annot) ++ self .bareType ++ maybe (identifier ++ tok ".") ++
        keyword .other "this")
  let spread : Rule :=
    phrase .other
      (modifiers self ++ self .bareType ++ many (self .annot) ++ tok "..." ++ variableName self)
  let plain : Rule := phrase .other (modifiers self ++ self .bareType ++ variableName self)
  phrase .other (tok "(" ++ commaList (receiver <|> spread <|> plain) ++ tok ")")

end AdLint.Java.Grammar
