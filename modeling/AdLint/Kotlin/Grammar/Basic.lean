import AdLint.Kotlin.Kind
import AdLint.Source.Chain

/-!
# Grammar of Kotlin: goals, names and types

Whether a line end ends a phrase depends on what is around it: inside parentheses and square
brackets it does not, and inside braces it does again. The goals carry this as their `Layout`.
-/

namespace AdLint.Kotlin.Grammar

open Reader

/-- Whether a line end can end a phrase. -/
inductive Layout where
  | lines
  | free
  deriving DecidableEq, Repr

/-- What a rule can refer to. -/
inductive Goal where
  | type
  | annot
  | expression (layout : Layout)
  /-- An operand of a binary operator. -/
  | operand (layout : Layout)
  | valueArguments
  | statement (layout : Layout)
  /-- Statements up to a closing brace. -/
  | statements
  | declaration
  | classBody
  deriving DecidableEq, Repr

/-- A reader of Kotlin. -/
abbrev Rule := Reader Kind

/-- The readers of all goals. -/
abbrev Rules := Goal → Rule

/-- Words that are never identifiers. -/
def reserved : List String :=
  ["as", "as?", "break", "class", "continue", "do", "else", "false", "for", "fun", "if", "in",
    "interface", "is", "null", "object", "package", "return", "super", "this", "throw",
    "true", "try", "typealias", "val", "var", "when", "while"]

/-- Whether a token is a label, which ends with an at sign. -/
def isLabel (t : Token) : Bool := t.kind == .word && t.text.toList.getLast? == some '@'

/-- Whether a token is an identifier. -/
def isIdentifier (t : Token) : Bool :=
  t.kind == .word && !reserved.contains t.text && !isLabel t

/-- Whether the next token satisfies a condition. -/
def nextIs (condition : Token → Bool) : List Token → Bool
  | t :: _ => condition t
  | [] => false

/-- Whether the next token is an identifier. -/
def nextIsIdentifier : List Token → Bool := nextIs isIdentifier

/-- Whether the next token is one of some keywords or marks. -/
def nextIsOneOf (texts : List String) : List Token → Bool :=
  nextIs fun t => (t.kind == .word || t.kind == .mark) && texts.contains t.text

/-- Whether a phrase ends before the next token because a line ends there. -/
def ends (layout : Layout) (ts : List Token) : Bool :=
  layout == .lines && nextIs (fun t => t.newLine) ts

/-- A reader that applies only where the line goes on. -/
def onward (layout : Layout) (r : Rule) : Rule := guarded (fun ts => !ends layout ts) r

/-- Whether a reader succeeds and leaves tokens that satisfy a condition. -/
def leads (r : Rule) (condition : List Token → Bool) (ts : List Token) : Bool :=
  match r.run ts with
  | some (_, rest) => condition rest
  | none => false

/-- The tokens after the bracket that closes the one just opened; `depth` counts the open ones. -/
def afterClosing : Nat → List Token → List Token
  | _, [] => []
  | depth, t :: ts =>
    if t.reads "(" then afterClosing (depth + 1) ts
    else if t.reads ")" then if depth == 0 then ts else afterClosing (depth - 1) ts
    else afterClosing depth ts

/-- An identifier. -/
def identifier : Rule := leafIf .name isIdentifier

/-- The identifier of a type. -/
def typeIdentifier : Rule := leafIf .typeName isIdentifier

/-- A keyword that is a phrase of its own. -/
def keyword (kind : Kind) (text : String) : Rule := leafIf kind fun t => t.reads text

/-- Items with commas between them, and perhaps one after the last. -/
def commaList (r : Rule) : Rule := maybe (sepBy1 r (tok ",") ++ maybe (tok ","))

/-- Type arguments in angle brackets. -/
def typeArguments (self : Rules) : Rule :=
  let variance : Rule := maybe (tokIn ["in", "out"])
  phrase .other (tok "<" ++ commaList (tok "*" <|> (variance ++ self .type)) ++ tok ">")

/-- A type without marks. -/
def userType (self : Rules) : Rule :=
  let part : Rule := typeIdentifier ++ maybe (typeArguments self)
  phrase .userType (part ++ many (tok "." ++ part))

/-- The parameters of the type of a function. -/
def functionTypeParameters (self : Rules) : Rule :=
  let named : Rule := identifier ++ tok ":" ++ self .type
  phrase .other (tok "(" ++ commaList (named <|> self .type) ++ tok ")")

/-- Question marks after a type. -/
def questionMarks : Rule := many1 (tok "?")

/-- Whether the type of a function without a receiver comes next. -/
def nextIsFunctionType (ts : List Token) : Bool :=
  nextReads "(" ts && nextReads "->" (afterClosing 0 (ts.drop 1))

/-- An annotation before a type. It takes no arguments that belong to the type of a function. -/
def typeAnnot (self : Rules) : Rule :=
  let bare : Rule := phrase .annot (tok "@" ++ userType self)
  branch (leads bare nextIsFunctionType) bare (self .annot)

/-- How to extend a type by what comes next: question marks, the rest of a function's type after its
receiver, or the type it is intersected with. -/
def typeSuffix? (self : Rules) (ts : List Token) :
    Option (Rule × (Forest Kind → Forest Kind → Forest Kind)) :=
  let joined (left right : Forest Kind) : Forest Kind := Tree.phrase .otherType (left ++ right)
  if nextReads "?" ts then some (questionMarks, joined)
  else if nextReads "." ts && nextIsFunctionType (ts.drop 1) then
    some (tok "." ++ functionTypeParameters self ++ tok "->" ++ self .type, joined)
  else if nextReads "&" ts then some (tok "&" ++ userType self, joined)
  else none

/-- A type. -/
def type (self : Rules) : Rule :=
  let mark : Rule := typeAnnot self <|> guarded (nextReads "suspend") (tok "suspend")
  let marks : Rule := guarded (nextIsOneOf ["@", "suspend"]) (phrase .other (many1 mark))
  let function : Rule :=
    phrase .otherType (functionTypeParameters self ++ tok "->" ++ self .type)
  let inner : Rule := phrase .otherType (tok "(" ++ self .type ++ tok ")")
  let simple : Rule := branch (nextReads "(") inner (userType self)
  maybe marks ++ branch nextIsFunctionType function (extending simple (typeSuffix? self))

/-- Type parameters in angle brackets. -/
def typeParameters (self : Rules) : Rule :=
  let marks : Rule := many (self .annot <|> tokIn ["reified", "in", "out"])
  let parameter : Rule := phrase .other (marks ++ typeIdentifier ++ maybe (tok ":" ++ self .type))
  phrase .other (tok "<" ++ commaList parameter ++ tok ">")

/-- Bounds on type parameters after a declaration's head. -/
def typeConstraints (self : Rules) : Rule :=
  let constraint : Rule :=
    phrase .other (many (self .annot) ++ typeIdentifier ++ tok ":" ++ self .type)
  phrase .other (tok "where" ++ sepBy1 constraint (tok ","))

/-- The targets that an annotation can name. -/
def annotTargets : List String :=
  ["field", "property", "get", "set", "receiver", "param", "setparam", "delegate", "file"]

/-- The name of an annotation, with its arguments if it has any. -/
def annotCall (self : Rules) : Rule :=
  let call : Rule := phrase .constructorCall (userType self ++ self .valueArguments)
  branch (leads (userType self) (nextReads "(")) call (userType self)

/-- An annotation, or several in square brackets. -/
def annot (self : Rules) : Rule :=
  let isTarget : List Token → Bool :=
    fun ts => nextIsOneOf annotTargets ts && nextReads ":" (ts.drop 1)
  let target : Rule := guarded isTarget (phrase .other (tokIn annotTargets ++ tok ":"))
  let several : Rule := tok "[" ++ many1 (annotCall self) ++ tok "]"
  phrase .annot (tok "@" ++ maybe target ++ branch (nextReads "[") several (annotCall self))

/-- The keywords that may stand before a declaration. -/
def modifierWords : List String :=
  ["sealed", "annotation", "data", "inner", "value", "override", "lateinit", "public", "private",
    "internal", "protected", "tailrec", "operator", "infix", "inline", "external",
    "suspend", "const", "abstract", "final", "open", "vararg", "noinline", "crossinline",
    "expect", "actual"]

/-- The annotations and keywords before a declaration, if there are any. A word is a keyword only
where another word or an annotation follows; otherwise it is a name. -/
def modifiers (self : Rules) : Rule :=
  let word : Rule := leafIf .modifier fun t => t.kind == .word && modifierWords.contains t.text
  let goesOn : List Token → Bool :=
    fun ts => nextIs (fun t => t.kind == .word || t.reads "@") (ts.drop 1)
  maybe (phrase .modifiers (many1 (self .annot <|> guarded goesOn word)))

end AdLint.Kotlin.Grammar
