import AdLint.Java.Grammar.Statement

/-!
# Grammar of Java: declarations

Types with their bodies, methods, constructors and fields, and the clauses of a file. The rules are
tied together in `grammar`, and `read` applies them to the tokens of a file.
-/

namespace AdLint.Java.Grammar

open Reader

/-- The types that a class extends. -/
def superclass (self : Rules) : Rule := phrase .superclass (tok "extends" ++ self .type)

/-- A list of types after a keyword. -/
def interfacesAfter (self : Rules) (keyword : String) : Rule :=
  phrase .interfaces (tok keyword ++ typeList self)

/-- The types that may extend a sealed type. -/
def permits (self : Rules) : Rule := phrase .other (tok "permits" ++ typeList self)

/-- The failures that a method declares. -/
def throws (self : Rules) : Rule := phrase .other (tok "throws" ++ sepBy1 (self .type) (tok ","))

/-- The body of a class, a record or an interface. -/
def classBody (self : Rules) : Rule :=
  phrase .other (tok "\x7b" ++ many (self .member) ++ tok "\x7d")

/-- The body of an enumeration: its constants, then other members after a semicolon. -/
def enumBody (self : Rules) : Rule :=
  let constant : Rule :=
    phrase .other
      (modifiers self ++ identifier ++ maybe (self .arguments) ++ maybe (self .classBody))
  let rest : Rule := phrase .other (tok ";" ++ many (self .member))
  phrase .other
    (tok "\x7b" ++ commaList constant ++ maybe (tok ",") ++ maybe rest ++ tok "\x7d")

/-- Whether an element of an annotation type comes next. -/
def nextIsElement (self : Rules) : List Token → Bool :=
  leads (modifiers self ++ self .bareType ++ identifier) (nextReads "(")

/-- The body of an annotation type. -/
def annotBody (self : Rules) : Rule :=
  let default : Rule := tok "default" ++ self .elementValue
  let element : Rule :=
    phrase .other
      (modifiers self ++ self .bareType ++ identifier ++ tok "(" ++ tok ")" ++ dimensions self ++
        maybe default ++ tok ";")
  phrase .other
    (tok "\x7b" ++ many (branch (nextIsElement self) element (self .member)) ++ tok "\x7d")

/-- The declaration of a type. -/
def typeDeclaration (self : Rules) : Rule :=
  let named (word : String) : Rule := modifiers self ++ tok word ++ as .name identifier
  let generics : Rule := maybe (typeParameters self)
  oneOf
    [ phrase (.typeDeclaration .classType)
        (named "class" ++ generics ++ maybe (superclass self) ++
          maybe (interfacesAfter self "implements") ++ maybe (permits self) ++
          as .body (self .classBody)),
      phrase (.typeDeclaration .interface)
        (named "interface" ++ generics ++ maybe (interfacesAfter self "extends") ++
          maybe (permits self) ++ as .body (self .classBody)),
      phrase (.typeDeclaration .enum)
        (named "enum" ++ maybe (interfacesAfter self "implements") ++ as .body (enumBody self)),
      phrase (.typeDeclaration .interface) (named "@interface" ++ as .body (annotBody self)),
      phrase (.typeDeclaration .classType)
        (named "record" ++ generics ++ self .parameters ++
          maybe (interfacesAfter self "implements") ++ as .body (self .classBody)) ]

/-- What stands before the name of a method or constructor. -/
def genericModifiers (self : Rules) : Rule :=
  modifiers self ++ maybe (typeParameters self ++ many (self .annot))

/-- A method. -/
def method (self : Rules) : Rule :=
  phrase .method
    (genericModifiers self ++ as .type (self .bareType) ++ as .name identifier ++
      self .parameters ++ dimensions self ++ maybe (throws self) ++
      (as .body (self .block) <|> tok ";"))

/-- Whether a method comes next. -/
def nextIsMethod (self : Rules) : List Token → Bool :=
  leads (genericModifiers self ++ self .bareType ++ identifier) (nextReads "(")

/-- A member of a class. -/
def member (self : Rules) : Rule :=
  let constructor : Rule :=
    phrase .method
      (genericModifiers self ++ as .name identifier ++ self .parameters ++ maybe (throws self) ++
        as .body (self .block))
  let compactConstructor : Rule :=
    phrase .other (modifiers self ++ as .name identifier ++ as .body (self .block))
  let fields : Rule :=
    phrase .field (modifiers self ++ as .type (self .bareType) ++ declarators self ++ tok ";")
  branch (nextReads ";") (tok ";")
  (branch (nextReads "\x7b") (self .block)
  (branch (nextAre ["static", "\x7b"]) (phrase .other (tok "static" ++ self .block))
  (branch (nextIsTypeDeclaration self) (typeDeclaration self)
  (branch (nextIsMethod self) (method self)
  (branch (leads (genericModifiers self ++ identifier) (nextReads "(")) constructor
  (branch (leads (modifiers self ++ identifier) (nextReads "\x7b")) compactConstructor
    fields))))))

/-- The rules of all goals, given the readers of all goals. -/
def grammar (self : Rules) : Rules
  | .type => type self
  | .bareType => bareType self
  | .annot => annot self
  | .elementValue => elementValue self
  | .expression => expression self
  | .operand => operand self
  | .variableValue => variableValue self
  | .arguments => arguments self
  | .parameters => parameters self
  | .pattern => pattern self
  | .block => block self
  | .statement => statement (typeDeclaration self) self
  | .member => member self
  | .classBody => classBody self

/-- Whether the declaration of a module comes next. -/
def nextIsModule (self : Rules) : List Token → Bool :=
  leads (many (self .annot) ++ maybe (tok "open") ++ tok "module") nextIsIdentifier

/-- The declaration of a module. Its directives are passed over. -/
def moduleDeclaration (self : Rules) : Rule :=
  let directive : Rule := leafIf .token fun t => !t.reads "\x7d"
  phrase .other
    (many (self .annot) ++ maybe (tok "open") ++ tok "module" ++ dottedName ++ tok "\x7b" ++
      many directive ++ tok "\x7d")

/-- What may stand at the top of a file: clauses, types, and also statements and methods. -/
def topLevel (self : Rules) : Rule :=
  let package : Rule :=
    phrase .packageClause (many (self .annot) ++ tok "package" ++ dottedName ++ tok ";")
  let star : Rule := tok "." ++ leafIf .star fun t => t.reads "*"
  let imported : Rule :=
    phrase .importClause
      (tok "import" ++ maybe (tok "static") ++ dottedName ++ maybe star ++ tok ";")
  branch (leads (many (self .annot)) (nextReads "package")) package
  (branch (nextReads "import") imported
  (branch (nextIsModule self) (moduleDeclaration self)
  (branch (fun ts => !nextIsTypeDeclaration self ts && nextIsMethod self ts) (method self)
    (self .statement))))

/-- The tree of a file, as the forest of what stands at its top. Reading stops where the rules do
not apply. The depth of references is bounded by the number of tokens: every rule that refers to
itself through others takes a token within a few references. -/
def read (ts : List Token) : Forest Kind :=
  match (many (topLevel (Reader.fix grammar (8 * ts.length + 8)))).run ts with
  | some (forest, _) => forest
  | none => []

end AdLint.Java.Grammar
