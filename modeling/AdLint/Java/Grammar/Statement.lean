import AdLint.Java.Grammar.Expression

/-!
# Grammar of Java: statements
-/

namespace AdLint.Java.Grammar

open Reader

/-- Whether the declaration of a variable comes next: modifiers, a type and a name, with one of some
marks after it. -/
def nextIsVariable (self : Rules) (after : List String) (ts : List Token) : Bool :=
  leads (modifiers self ++ self .bareType ++ identifier)
    (nextIs fun t => t.kind == .mark && after.contains t.text) ts

/-- Whether the declaration of a type comes next. -/
def nextIsTypeDeclaration (self : Rules) (ts : List Token) : Bool :=
  leads (modifiers self)
    (fun rest =>
      nextIs (fun t => ["class", "interface", "enum", "@interface"].contains t.text) rest ||
        (nextReads "record" rest && nextIsIdentifier (rest.drop 1) &&
          (nextReads "(" (rest.drop 2) || nextReads "<" (rest.drop 2))))
    ts

/-- The declaration of local variables, with its semicolon. -/
def localVariables (self : Rules) : Rule :=
  phrase .other (modifiers self ++ as .type (self .bareType) ++ declarators self ++ tok ";")

/-- An expression in parentheses. -/
def condition (self : Rules) : Rule :=
  phrase .parenthesized (tok "(" ++ self .expression ++ tok ")")

/-- A loop over a range or a collection. -/
def forStatement (self : Rules) : Rule :=
  let element : Rule := modifiers self ++ self .bareType ++ variableName self
  let each : Rule :=
    tok "for" ++ tok "(" ++ element ++ tok ":" ++ self .expression ++ tok ")" ++ self .statement
  let start : Rule :=
    branch (nextIsVariable self ["=", ",", ";", "["]) (localVariables self)
      (commaList (self .expression) ++ tok ";")
  let counting : Rule :=
    tok "for" ++ tok "(" ++ start ++ maybe (self .expression) ++ tok ";" ++
      commaList (self .expression) ++ tok ")" ++ self .statement
  let isEach : List Token → Bool := leads (tok "for" ++ tok "(" ++ element) (nextReads ":")
  phrase .other (branch isEach each counting)

/-- A block with what handles its failures. -/
def tryStatement (self : Rules) : Rule :=
  let resource : Rule :=
    branch (nextIsVariable self ["="])
      (phrase .other
        (modifiers self ++ self .bareType ++ variableName self ++ tok "=" ++ self .expression))
      (self .expression)
  let resources : Rule :=
    phrase .other (tok "(" ++ sepBy1 resource (tok ";") ++ maybe (tok ";") ++ tok ")")
  let caught : Rule :=
    phrase .other (modifiers self ++ sepBy1 (self .bareType) (tok "|") ++ identifier)
  let handler : Rule := phrase .other (tok "catch" ++ tok "(" ++ caught ++ tok ")" ++ self .block)
  let final : Rule := phrase .other (tok "finally" ++ self .block)
  phrase .other (tok "try" ++ maybe resources ++ self .block ++ many handler ++ maybe final)

/-- Whether a statement that gives the value of a branch comes next. -/
def nextIsYield (ts : List Token) : Bool :=
  nextReads "yield" ts &&
    !nextIs (fun t => t.kind == .mark && (t.text == "." || t.text == "[" || t.text == "::" ||
      assignments.contains t.text)) (ts.drop 1)

/-- A statement that begins with a keyword. -/
def keywordStatement (self : Rules) (word : String) : Option Rule :=
  let expression : Rule := self .expression
  let statement : Rule := self .statement
  match word with
  | "if" =>
    some (tok "if" ++ condition self ++ statement ++ maybe (tok "else" ++ statement))
  | "while" => some (tok "while" ++ condition self ++ statement)
  | "do" => some (tok "do" ++ statement ++ tok "while" ++ condition self ++ tok ";")
  | "for" => some (forStatement self)
  | "try" => some (tryStatement self)
  | "switch" => some (switch self)
  | "return" => some (tok "return" ++ maybe expression ++ tok ";")
  | "throw" => some (tok "throw" ++ expression ++ tok ";")
  | "break" => some (tok "break" ++ maybe identifier ++ tok ";")
  | "continue" => some (tok "continue" ++ maybe identifier ++ tok ";")
  | "assert" => some (tok "assert" ++ expression ++ maybe (tok ":" ++ expression) ++ tok ";")
  | _ => none

/-- A statement. The declarations of types are read by `typeDeclaration`. -/
def statement (typeDeclaration : Rule) (self : Rules) : Rule :=
  ⟨fun ts =>
    let word := (ts.head?.map fun t => if t.kind == .word then t.text else "").getD ""
    let other : Rule :=
      branch (nextReads "\x7b") (self .block)
      (branch (nextReads ";") (tok ";")
      (branch (nextAre ["synchronized", "("])
        (phrase .other (tok "synchronized" ++ condition self ++ self .block))
      (branch nextIsYield (phrase .other (tok "yield" ++ self .expression ++ tok ";"))
      (branch (fun ts => nextIsIdentifier ts && nextReads ":" (ts.drop 1))
        (phrase .other (identifier ++ tok ":" ++ self .statement))
      (branch (nextIsTypeDeclaration self) typeDeclaration
      (branch (nextIsVariable self ["=", ",", ";", "["]) (localVariables self)
        (phrase .other (self .expression ++ tok ";"))))))))
    match keywordStatement self word with
    | some rule => (phrase .other rule).run ts
    | none => other.run ts⟩

/-- Statements in braces. -/
def block (self : Rules) : Rule :=
  phrase .other (tok "\x7b" ++ many (self .statement) ++ tok "\x7d")

end AdLint.Java.Grammar
