import AdLint.Java.Grammar.Basic

/-!
# Grammar of Java: expressions

From the loosest to the tightest: lambda expressions and assignments, conditionals, binary operators
on ten levels, prefix operators and casts, and primary expressions with their selectors.
-/

namespace AdLint.Java.Grammar

open Reader

/-- The tokens after the bracket that closes the one just opened; `depth` counts the open ones. -/
def afterClosing : Nat → List Token → List Token
  | _, [] => []
  | depth, t :: ts =>
    if t.reads "(" then afterClosing (depth + 1) ts
    else if t.reads ")" then if depth == 0 then ts else afterClosing (depth - 1) ts
    else afterClosing depth ts

/-- Whether a lambda expression comes next. -/
def nextIsLambda : List Token → Bool
  | t :: ts =>
    if t.reads "(" then nextReads "->" (afterClosing 0 ts)
    else isIdentifier t && nextReads "->" ts
  | [] => false

/-- A lambda expression. -/
def lambda (self : Rules) : Rule :=
  let untyped : Rule := phrase .other (tok "(" ++ commaList identifier ++ tok ")")
  let body : Rule := branch (nextReads "\x7b") (self .block) (self .expression)
  phrase .lambda ((identifier <|> untyped <|> self .parameters) ++ tok "->" ++ body)

/-- The arguments of a call. -/
def arguments (self : Rules) : Rule :=
  phrase .argumentList (tok "(" ++ commaList (self .expression) ++ tok ")")

/-- The selector of a method after a receiver: type arguments, a name and arguments. -/
def methodCall (self : Rules) : Rule :=
  maybe (typeArguments self) ++ as .name identifier ++ as .arguments (self .arguments)

/-- What stands before the arguments or brackets of a creation. -/
def creationHead (self : Rules) : Rule :=
  tok "new" ++ maybe (typeArguments self) ++ many (self .annot) ++ as .type (simpleType self)

/-- The parts of the creation of an object. -/
def objectCreation (self : Rules) : Rule :=
  creationHead self ++ as .arguments (self .arguments) ++ maybe (self .classBody)

/-- The creation of an object or an array. -/
def creation (self : Rules) : Rule :=
  let ahead : Rule := creationHead self
  let sized : Rule := phrase .other (many (self .annot) ++ tok "[" ++ self .expression ++ tok "]")
  let emptyBrackets : Rule := phrase .other (many1 (many (self .annot) ++ tok "[" ++ tok "]"))
  let filled : Rule := phrase .arrayCreation (ahead ++ emptyBrackets ++ self .variableValue)
  let plain : Rule := phrase .arrayCreation (ahead ++ many1 sized ++ maybe emptyBrackets)
  branch (leads ahead (nextReads "(")) (phrase .creation (objectCreation self))
    (branch (leads (ahead ++ emptyBrackets) (nextReads "\x7b")) filled plain)

/-- A class literal or a method reference on a type. -/
def onType (self : Rules) : Rule :=
  let target : Rule := maybe (typeArguments self) ++ (tok "new" <|> identifier)
  phrase .classLiteral (self .bareType ++ tok "." ++ tok "class") <|>
    phrase .lambda (self .bareType ++ tok "::" ++ target)

/-- A leaf for a literal. -/
def literal : Rule :=
  oneOf
    [ leafIf .integer fun t => t.kind == .integer,
      leafIf .text fun t => t.kind == .text,
      leafIf .literal fun t => t.kind == .floating || t.kind == .character,
      keyword (.truth true) "true",
      keyword (.truth false) "false",
      keyword .null "null" ]

/-- An expression before the arrow of a branch, which does not make it a lambda expression. -/
def labelValue (self : Rules) : Rule :=
  let isName : List Token → Bool := fun ts => nextIsIdentifier ts && nextReads "->" (ts.drop 1)
  branch isName identifier (branch nextIsLambda (self .operand) (self .expression))

/-- A label of a branch of a switch. -/
def switchLabel (self : Rules) : Rule :=
  let value : Rule := self .pattern <|> labelValue self
  let guard : Rule := phrase .other (tok "when" ++ labelValue self)
  phrase .other ((tok "case" ++ sepBy1 value (tok ",") ++ maybe guard) <|> tok "default")

/-- A switch with its branches. -/
def switch (self : Rules) : Rule :=
  let condition : Rule := phrase .parenthesized (tok "(" ++ self .expression ++ tok ")")
  let label : Rule := switchLabel self
  let throwing : Rule := phrase .other (tok "throw" ++ self .expression ++ tok ";")
  let computing : Rule := phrase .other (self .expression ++ tok ";")
  let result : Rule := branch (nextReads "\x7b") (self .block) (throwing <|> computing)
  let rule : Rule := phrase .other (label ++ tok "->" ++ result)
  let group : Rule := phrase .other (many1 (label ++ tok ":") ++ many (self .statement))
  let body : Rule :=
    tok "\x7b" ++ many (branch (leads label (nextReads "->")) rule group) ++ tok "\x7d"
  phrase .other (tok "switch" ++ condition ++ phrase .other body)

/-- The start of a primary expression. -/
def primaryStart (self : Rules) : Rule :=
  let call : Rule := phrase .invocation (as .name identifier ++ as .arguments (self .arguments))
  let constructorCall : Rule :=
    phrase .other (maybe (typeArguments self) ++ tokIn ["this", "super"] ++ self .arguments)
  let itself : Rule := keyword .other "this" <|> keyword .other "super"
  oneOf
    [ literal, onType self, constructorCall, itself, call, identifier,
      phrase .parenthesized (tok "(" ++ self .expression ++ tok ")"),
      guarded (nextReads "new") (creation self), guarded (nextReads "switch") (switch self) ]

/-- How to extend a primary expression by the selector that comes next. -/
def selector? (self : Rules) (ts : List Token) :
    Option (Rule × (Forest Kind → Forest Kind → Forest Kind)) :=
  let select (kind : Kind) (left right : Forest Kind) : Forest Kind :=
    Tree.phrase kind (Tree.labelled .receiver left ++ right)
  let through : Rule := maybe (tok "super" ++ tok ".")
  let call : Rule := tok "." ++ through ++ methodCall self
  let access : Rule := tok "." ++ through ++ (identifier <|> keyword .other "this")
  let inner : Rule := tok "." ++ objectCreation self
  let parentConstructor : Rule :=
    tok "." ++ maybe (typeArguments self) ++ tok "super" ++ self .arguments
  let parentMethod : Rule := tok "." ++ tok "super"
  let index : Rule := tok "[" ++ self .expression ++ tok "]"
  let target : Rule := tok "::" ++ maybe (typeArguments self) ++ (tok "new" <|> identifier)
  if nextReads "." ts then
    let isCall := leads (tok "." ++ through ++ maybe (typeArguments self) ++ identifier)
      (nextReads "(") ts
    if isCall then some (call, select .invocation)
    else if nextAre [".", "new"] ts then some (inner, select .creation)
    else if (access.run ts).isSome then some (access, select .name)
    else if nextAre [".", "super", "::"] ts then some (parentMethod, select .other)
    else some (parentConstructor, select .other)
  else if nextReads "[" ts then some (index, select .other)
  else if nextReads "::" ts then some (target, select .lambda)
  else none

/-- A primary expression. -/
def primary (self : Rules) : Rule := extending (primaryStart self) (selector? self)

/-- Whether a token can begin the operand of a cast to a declared type. -/
def beginsCastOperand (t : Token) : Bool :=
  match t.kind with
  | .integer | .floating | .character | .text => true
  | .word =>
    isIdentifier t || primitives.contains t.text ||
      ["this", "super", "new", "true", "false", "null", "switch"].contains t.text
  | .mark => ["(", "!", "~"].contains t.text
  | _ => false

/-- Whether a token can begin the operand of a cast to a primitive type. -/
def beginsOperand (t : Token) : Bool :=
  beginsCastOperand t || (t.kind == .mark && ["+", "-", "++", "--"].contains t.text)

/-- A cast. -/
def cast (self : Rules) : Rule :=
  let ahead : Rule := tok "(" ++ sepBy1 (self .type) (tok "&") ++ tok ")"
  let primitiveAhead : List Token → Bool := fun ts =>
    nextReads "(" ts && nextIs (fun t => primitives.contains t.text) (ts.drop 1) &&
      nextReads ")" (ts.drop 2) && nextIs beginsOperand (ts.drop 3)
  let isCast : List Token → Bool := fun ts =>
    primitiveAhead ts || leads ahead (nextIs beginsCastOperand) ts
  guarded isCast
    (phrase .cast (ahead ++ as .value (branch nextIsLambda (lambda self) (self .operand))))

/-- How to extend an operand by the increment or decrement that comes next. -/
def increment? (ts : List Token) : Option (Rule × (Forest Kind → Forest Kind → Forest Kind)) :=
  if nextReads "++" ts || nextReads "--" ts then
    some (tokIn ["++", "--"], fun left right => Tree.phrase .other (left ++ right))
  else none

/-- An operand of a binary operator. -/
def operand (self : Rules) : Rule :=
  let signed : Rule :=
    phrase .unary (as .operator (tokIn ["+", "-", "!", "~"]) ++ as .operand (self .operand))
  let stepped : Rule := phrase .other (tokIn ["++", "--"] ++ self .operand)
  oneOf [signed, stepped, guarded (nextReads "(") (cast self), extending (primary self) increment?]

/-- The levels of the binary operators, from the loosest on level 1. -/
def levelOf? : String → Option Nat
  | "||" => some 1
  | "&&" => some 2
  | "|" => some 3
  | "^" => some 4
  | "&" => some 5
  | "==" | "!=" => some 6
  | "<" | "<=" | ">" | ">=" => some 7
  | "<<" | ">>" | ">>>" => some 8
  | "+" | "-" => some 9
  | "*" | "/" | "%" => some 10
  | _ => none

/-- The next tokens as one operator: angle brackets that touch one another make a shift, and with an
equals sign an assignment. -/
def operatorWidth : List Token → Nat
  | a :: b :: c :: _ =>
    if a.reads ">" && b.adjacent then
      if b.reads ">=" then 2
      else if b.reads ">" then if c.adjacent && (c.reads ">" || c.reads ">=") then 3 else 2
      else 1
    else 1
  | _ => 1

/-- The next tokens as one operator. -/
def nextOperator (ts : List Token) : String :=
  String.join ((ts.take (operatorWidth ts)).map fun t => if t.kind == .mark then t.text else "")

/-- The reader of the next operator, as one plain token. -/
def operator (ts : List Token) : Rule :=
  phrase .token ((List.replicate (operatorWidth ts) (leafIf .token fun _ => true)).foldl
    (· ++ ·) nothing)

/-- The next binary operator and the operand to its right. -/
def link? (self : Rules) (ts : List Token) : Option (Link Kind × List Token) :=
  let test (left op right : Forest Kind) : Forest Kind := Tree.phrase .other (left ++ op ++ right)
  let joined (left op right : Forest Kind) : Forest Kind :=
    Tree.phrase .binary
      (Tree.labelled .left left ++ Tree.labelled .operator op ++ Tree.labelled .right right)
  if nextReads "instanceof" ts then
    Link.read 7 test (tok "instanceof" ++ maybe (tok "final")) (self .pattern <|> self .type) ts
  else
    (levelOf? (nextOperator ts)).bind fun level =>
      Link.read level joined (operator ts) (self .operand) ts

/-- A chain of binary operators. -/
def binary (self : Rules) : Rule := Chain.reader 10 (self .operand) (link? self)

/-- The operators of assignments. -/
def assignments : List String :=
  ["=", "+=", "-=", "*=", "/=", "&=", "|=", "^=", "%=", "<<=", ">>=", ">>>="]

/-- How to extend a chain of operators by what comes next: the branches of a conditional, or the
value that is assigned. -/
def assignment? (self : Rules) (ts : List Token) :
    Option (Rule × (Forest Kind → Forest Kind → Forest Kind)) :=
  let joined (left right : Forest Kind) : Forest Kind := Tree.phrase .other (left ++ right)
  if nextReads "?" ts then
    some (tok "?" ++ self .expression ++ tok ":" ++ self .expression, joined)
  else if assignments.contains (nextOperator ts) then
    some (operator ts ++ self .expression, joined)
  else none

/-- An expression. -/
def expression (self : Rules) : Rule :=
  branch nextIsLambda (lambda self) (extending (binary self) (assignment? self))

/-- A pattern in a switch or after `instanceof`: a type with a name, or a record with patterns. -/
def pattern (self : Rules) : Rule :=
  let name : Rule := simpleType self
  let component : Rule := self .pattern <|> identifier
  let record : Rule :=
    phrase .other (name ++ phrase .other (tok "(" ++ commaList component ++ tok ")"))
  let typed : Rule :=
    phrase .other (self .bareType ++ guarded (fun ts => !nextReads "when" ts) identifier)
  record <|> typed

end AdLint.Java.Grammar
