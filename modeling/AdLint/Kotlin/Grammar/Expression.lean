import AdLint.Kotlin.Grammar.Basic

/-!
# Grammar of Kotlin: expressions

An operator in front of an operand applies to the whole expression after it. Binary operators bind
on eleven levels, casts tightest. Behind a primary expression stand calls, indices and member
accesses.
-/

namespace AdLint.Kotlin.Grammar

open Reader

/-- The name and the type of a variable. -/
def oneVariable (self : Rules) : Rule :=
  phrase .variable (many (self .annot) ++ identifier ++ maybe (tok ":" ++ self .type))

/-- Several variables in parentheses. -/
def variableList (self : Rules) : Rule :=
  phrase .other (tok "(" ++ commaList (oneVariable self) ++ tok ")")

/-- Statements in braces. -/
def block (self : Rules) : Rule := tok "\x7b" ++ self .statements ++ tok "\x7d"

/-- The body of a branch or a loop. -/
def branchBody (self : Rules) (layout : Layout) : Rule :=
  phrase .other (branch (nextReads "\x7b") (block self) (self (.statement layout)))

/-- The arguments of a call. An argument can have a name. -/
def valueArguments (self : Rules) : Rule :=
  let isNamed : List Token → Bool := fun ts => nextIsIdentifier ts && nextReads "=" (ts.drop 1)
  let name : Rule := guarded isNamed (identifier ++ tok "=")
  let argument : Rule :=
    phrase .valueArgument (maybe name ++ self (.expression .free))
  phrase .valueArguments (tok "(" ++ commaList argument ++ tok ")")

/-- A function in braces. -/
def lambda (self : Rules) : Rule :=
  let parameters : Rule := phrase .other (commaList (oneVariable self <|> variableList self))
  let ahead : Rule := maybe parameters ++ tok "->"
  phrase .lambda
    (tok "\x7b" ++ branch (fun ts => (ahead.run ts).isSome) ahead nothing ++
      self .statements ++ tok "\x7d")

/-- A text with what is inserted into it. -/
def text (self : Rules) : Rule :=
  let one (kind : TokenKind) : Rule := leafIf .token fun t => t.kind == kind
  let inserted : Rule :=
    one .insertOpen ++ phrase .other (self (.expression .free)) ++ one .insertClose
  let part : Rule := one .chunk <|> one .insertedName <|> inserted
  phrase .text (one .quoteOpen ++ many part ++ one .quoteClose)

/-- The literals other than texts. The word `null` is a plain token. -/
def literal : Rule :=
  oneOf
    [ leafIf .integer fun t => t.kind == .integer,
      leafIf .literal fun t => t.kind == .floating || t.kind == .character,
      leafIf .truth fun t => t.reads "true" || t.reads "false",
      tok "null" ]

/-- Items in square brackets. Where an item is missing, between the brackets or after the last
comma, the mark before the closing bracket is a gap. -/
def collection (self : Rules) : Rule :=
  let item (mark : String) : Rule :=
    branch (fun ts => nextReads "]" (ts.drop 1)) (keyword .gap mark)
      (tok mark ++ self (.expression .free))
  phrase .collection (item "[" ++ many (item ",") ++ tok "]")

/-- A conditional expression. -/
def ifExpression (self : Rules) (layout : Layout) : Rule :=
  let body : Rule := branchBody self layout
  let otherwise : Rule := maybe (tok ";") ++ tok "else" ++ (tok ";" <|> body)
  phrase .other
    (tok "if" ++ tok "(" ++ self (.expression .free) ++ tok ")" ++
      (otherwise <|> (body ++ maybe otherwise) <|> tok ";"))

/-- A choice between branches. -/
def whenExpression (self : Rules) : Rule :=
  let bound : Rule := many (self .annot) ++ tok "val" ++ oneVariable self ++ tok "="
  let subject : Rule :=
    phrase .other (tok "(" ++ maybe bound ++ self (.expression .free) ++ tok ")")
  let negation : Rule := maybe (tok "!")
  let inTest : Rule := phrase .other (negation ++ tok "in" ++ self (.expression .free))
  let isTest : Rule := phrase .other (negation ++ tok "is" ++ self .type)
  let condition : Rule := phrase .other (inTest <|> isTest <|> self (.expression .free))
  let conditions : Rule := tok "else" <|> (sepBy1 condition (tok ",") ++ maybe (tok ","))
  let entry : Rule :=
    phrase .other (conditions ++ tok "->" ++ branchBody self .lines ++ many (tok ";"))
  phrase .other (tok "when" ++ maybe subject ++ tok "\x7b" ++ many entry ++ tok "\x7d")

/-- A block with what handles its failures. -/
def tryExpression (self : Rules) : Rule :=
  let handler : Rule :=
    phrase .other
      (tok "catch" ++ tok "(" ++ many (self .annot) ++ identifier ++ tok ":" ++ self .type ++
        maybe (tok ",") ++ tok ")" ++ block self)
  let final : Rule := phrase .other (tok "finally" ++ block self)
  phrase .other (tok "try" ++ block self ++ many handler ++ maybe final)

/-- An expression that leaves the place where it stands. -/
def jump (self : Rules) (layout : Layout) : Rule :=
  let target : Rule := leafIf .other fun t => t.kind == .word
  let value : Rule := maybe (onward layout (self (.expression layout)))
  phrase .other
    (oneOf
      [ tok "throw" ++ self (.expression layout), tok "return" ++ value,
        tok "return@" ++ target ++ value, tok "continue", tok "break", tok "continue@" ++ target,
        tok "break@" ++ target ])

/-- The receiver of this object or of its parent. -/
def selfReference (self : Rules) : Rule :=
  let target : Rule := leafIf .other fun t => t.kind == .word
  phrase .other
    (oneOf
      [ tok "this", tok "this@" ++ target, tok "super@" ++ target,
        tok "super" ++ tok "<" ++ self .type ++ tok ">", tok "super" ])

/-- One value parameter of a function. -/
def parameter (self : Rules) : Rule :=
  phrase .other (identifier ++ maybe (tok ":" ++ self .type))

/-- The value parameters of a function. -/
def parameters (self : Rules) : Rule :=
  let default : Rule := tok "=" ++ self (.expression .free)
  phrase .other
    (tok "(" ++ commaList (modifiers self ++ parameter self ++ maybe default) ++ tok ")")

/-- The body of a function. -/
def functionBody (self : Rules) : Rule :=
  phrase .functionBody
    (branch (nextReads "\x7b") (block self) (tok "=" ++ self (.expression .lines)))

/-- A function without a name. -/
def anonymousFunction (self : Rules) : Rule :=
  phrase .lambda
    (maybe (tok "suspend") ++ tok "fun" ++ maybe (userType self ++ tok ".") ++ parameters self ++
      maybe (tok ":" ++ self .type) ++ maybe (functionBody self))

/-- One of the types that a class extends or implements. -/
def delegation (self : Rules) (layout : Layout) : Rule :=
  let call : Rule := phrase .constructorCall (userType self ++ self .valueArguments)
  let left : Rule :=
    phrase .other (self .type ++ onward layout (tok "by") ++ self (.expression layout))
  let isLeft : List Token → Bool :=
    leads (self .type) fun ts => !ends layout ts && nextReads "by" ts
  phrase .delegation
    (many (self .annot) ++
      branch isLeft left
        (branch (leads (userType self) (nextReads "(")) call (self .type)))

/-- The types after a colon. -/
def delegations (self : Rules) (layout : Layout) : Rule :=
  tok ":" ++ sepBy1 (delegation self layout) (tok ",")

/-- An object without a name. -/
def objectLiteral (self : Rules) : Rule :=
  phrase .objectLiteral
    (maybe (tok "data") ++ tok "object" ++ maybe (delegations self .lines) ++ self .classBody)

/-- A reference to a function or a property, or a class literal on a name. -/
def callableReference : Rule :=
  phrase .lambda (maybe identifier ++ tok "::" ++ (identifier <|> tok "class"))

/-- The start of a primary expression. -/
def primaryStart (self : Rules) (layout : Layout) : Rule :=
  let isReference : List Token → Bool := fun ts =>
    nextReads "::" ts || (nextIsIdentifier ts && nextReads "::" (ts.drop 1))
  oneOf
    [ guarded isReference callableReference,
      literal,
      guarded (nextIs fun t => t.kind == .quoteOpen) (text self),
      guarded (nextReads "(")
        (phrase .parenthesized (tok "(" ++ self (.expression .free) ++ tok ")")),
      guarded (nextReads "[") (collection self),
      guarded (nextReads "\x7b") (lambda self),
      guarded (fun ts => nextReads "object" ts || nextAre ["data", "object"] ts)
        (objectLiteral self),
      guarded (fun ts => nextReads "fun" ts || nextAre ["suspend", "fun"] ts)
        (anonymousFunction self),
      guarded (nextReads "if") (ifExpression self layout),
      guarded (nextReads "when") (whenExpression self),
      guarded (nextReads "try") (tryExpression self),
      jump self layout, selfReference self, identifier ]

/-- The trailing lambda of a call. -/
def trailingLambda (self : Rules) : Rule :=
  let label : Rule := leafIf .other isLabel
  phrase .other (many (self .annot) ++ maybe label ++ lambda self)

/-- Whether a trailing lambda comes next. -/
def nextIsTrailingLambda (ts : List Token) : Bool :=
  nextReads "\x7b" ts || (nextIs isLabel ts && nextReads "\x7b" (ts.drop 1))

/-- How to extend a primary expression by what comes next. -/
def suffix? (self : Rules) (layout : Layout) (ts : List Token) :
    Option (Rule × (Forest Kind → Forest Kind → Forest Kind)) :=
  let joined (kind : Kind) (left right : Forest Kind) : Forest Kind :=
    Tree.phrase kind (left ++ right)
  let member : Rule := identifier <|> tok "class" <|>
    phrase .parenthesized (tok "(" ++ self (.expression .free) ++ tok ")")
  let callSuffix : Rule :=
    phrase .callSuffix
      (maybe (typeArguments self) ++
        branch (nextReads "(") (self .valueArguments) (trailingLambda self))
  let indices : Rule :=
    phrase .other (tok "[" ++ commaList (self (.expression .free)) ++ tok "]")
  if ends layout ts then none
  else if nextReads "(" ts || nextIsTrailingLambda ts then some (callSuffix, joined .call)
  else if nextReads "<" ts then
    let beforeCall := leads (typeArguments self) fun rest =>
      nextReads "(" rest || nextIsTrailingLambda rest
    if beforeCall ts then some (callSuffix, joined .call) else none
  else if nextReads "[" ts then some (indices, joined .other)
  else if nextReads "." ts || nextReads "::" ts then
    some (phrase .navigationSuffix (tokIn [".", "::"] ++ member), joined .navigation)
  else if nextAre ["?", "."] ts then
    some (phrase .navigationSuffix (phrase .other (tok "?" ++ tok ".") ++ member),
      joined .navigation)
  else if nextIsOneOf ["!!", "++", "--"] ts then some (tokIn ["!!", "++", "--"], joined .other)
  else none

/-- A primary expression with what stands behind it. -/
def primary (self : Rules) (layout : Layout) : Rule :=
  extending (primaryStart self layout) (suffix? self layout)

/-- The words with a label that are no label of an expression. -/
def jumpLabels : List String := ["return@", "break@", "continue@", "this@", "super@"]

/-- An operand of a binary operator. -/
def operand (self : Rules) (layout : Layout) : Rule :=
  let expression : Rule := self (.expression layout)
  let label : Rule := leafIf .other isLabel
  oneOf
    [ phrase .signed (tokIn ["-", "+", "!", "++", "--", "!!"] ++ expression),
      guarded (nextReads "@") (phrase .signed (self .annot ++ maybe expression)),
      guarded (nextIs fun t => isLabel t && !jumpLabels.contains t.text)
        (phrase .signed (label ++ expression)),
      phrase .other (tok "*" ++ expression),
      primary self layout ]

/-- The levels of the binary operators, from the loosest on level 1. -/
def levelOf? : String → Option Nat
  | "||" => some 1
  | "&&" => some 2
  | "==" | "!=" | "===" | "!==" => some 3
  | "<" | ">" | "<=" | ">=" => some 4
  | "?:" => some 6
  | ".." | "..<" => some 8
  | "+" | "-" => some 9
  | "*" | "/" | "%" => some 10
  | _ => none

/-- A link whose operator makes a phrase of a kind of the operands around it. -/
def linkOf? (level : Nat) (kind : Kind) (operator operand : Rule) (ts : List Token) :
    Option (Link Kind × List Token) :=
  Link.read level (fun left op right => Tree.phrase kind (left ++ op ++ right)) operator operand ts

/-- Whether an accessor of a property comes next: `get` or `set` with its parentheses and what
follows them. -/
def nextIsAccessor (ts : List Token) : Bool :=
  nextIsOneOf ["get", "set"] ts && nextReads "(" (ts.drop 1) &&
    nextIsOneOf ["=", "\x7b", ":"] (afterClosing 0 (ts.drop 2))

/-- The next binary operator and the operand to its right. -/
def link? (self : Rules) (layout : Layout) (ts : List Token) : Option (Link Kind × List Token) :=
  let right : Rule := self (.operand layout)
  if ends layout ts then none
  else if nextIsOneOf ["as", "as?"] ts then linkOf? 11 .cast (tokIn ["as", "as?"]) (self .type) ts
  else if nextReads "in" ts then linkOf? 5 .other (tok "in") right ts
  else if nextAre ["!", "in"] ts then linkOf? 5 .other (tok "!" ++ tok "in") right ts
  else if nextReads "is" ts then linkOf? 5 .other (tok "is") (self .type) ts
  else if nextAre ["!", "is"] ts then linkOf? 5 .other (tok "!" ++ tok "is") (self .type) ts
  else if nextIsIdentifier ts && !nextIsAccessor ts then linkOf? 7 .other identifier right ts
  else
    ts.head?.bind fun t =>
      (if t.kind == .mark then levelOf? t.text else none).bind fun level =>
        let kind := if level == 9 then .additive else .other
        linkOf? level kind (leafIf .token fun _ => true) right ts

/-- An expression. -/
def expression (self : Rules) (layout : Layout) : Rule :=
  Chain.reader 11 (self (.operand layout)) (link? self layout)

end AdLint.Kotlin.Grammar
