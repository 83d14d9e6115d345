import AdLint.Kotlin.Grammar.Declaration
import AdLint.Kotlin.Lexicon
import AdLint.Kotlin.Meaning
import AdLint.Source.Harvest

/-!
# The outline of a Kotlin file

A visit of the tree collects the package, the imports, the declarations and the calls. Of a type and
a function only the body is visited, and of a field only its value or its delegate. A property
inside a function is a local variable and no field, except in a type inside the function.

## Main definitions

* `visit`: what a node yields
* `outline`: the outline of a Kotlin file
-/

namespace AdLint.Kotlin

/-- Where a node stands: the declaration around it, and whether it is inside a function. -/
structure Context where
  parent : Option DeclarationId := none
  inFunction : Bool := false

/-- What an import yields. -/
def importOf (s : Source) (parts : List Node) : Harvest :=
  match ofKind? parts .path with
  | some path =>
    let localName := do
      let clause ← ofKind? parts .importAlias
      let name ← clause.parts.find? Tree.isNamed
      some (s.slice name.span)
    { imports :=
        [{ path := Text.compact (s.slice path.span)
           wildcard := parts.any fun part => part.kind == .star
           localName }] }
  | none => {}

/-- Whether one of some nodes is the given plain token. -/
def hasToken (s : Source) (nodes : List Node) (text : String) : Bool :=
  nodes.any fun node => !node.isNamed && s.slice node.span == text

/-- Whether a node is a type. -/
def isType (node : Node) : Bool := node.kind == .userType || node.kind == .otherType

/-- The first type among some nodes, blanks removed. -/
def typeIn? (s : Source) (nodes : List Node) : Option String :=
  (nodes.find? isType).map fun type => Text.compact (s.slice type.span)

/-- The type that a class extends or implements. One whose members another value provides does not
count. -/
def superTypeOf? (s : Source) (delegation : Node) : Option String :=
  let type :=
    (ofKind? delegation.parts .userType).or
      ((ofKind? delegation.parts .constructorCall).bind fun call => ofKind? call.parts .userType)
  type.map fun type => Text.compact (s.slice type.span)

/-- The annotations before a declaration. -/
def annotsOf (s : Source) (parts : List Node) : List Annot :=
  match ofKind? parts .modifiers with
  | some list => (list.parts.filter fun part => part.kind == .annot).filterMap (annot? s)
  | none => []

/-- The keywords before a declaration, with the comments among them. -/
def keywordsOf (s : Source) (parts : List Node) : List String :=
  match ofKind? parts .modifiers with
  | some list =>
    (list.namedParts.filter fun part => part.kind != .annot).map fun part =>
      Text.trim (s.slice part.span)
  | none => []

/-- The declaration that a node on a span with these parts writes, shown at `anchor`. -/
def declarationOf (s : Source) (kind : DeclarationKind) (span anchor : Span) (name : String)
    (parent : Option DeclarationId) (parts : List Node) : Declaration :=
  { id := s.identify span
    name
    kind
    location := s.locate span anchor
    language := .kotlin
    parent
    annotations := annotsOf s parts
    modifiers := keywordsOf s parts }

/-- The kind of type that a node declares. -/
def typeKindOf (s : Source) (kind : Kind) (parts : List Node) : DeclarationKind :=
  match kind with
  | .objectDeclaration => .object
  | .companion => .companionObject
  | _ =>
    if hasToken s parts "interface" then .interface
    else if hasToken s parts "enum" then .enum
    else .classType

/-- The name of a type and the place it is shown at. A companion without a name is called
`Companion`, after its keyword. -/
def typeNameOf? (s : Source) (kind : Kind) (span : Span) (parts : List Node) :
    Option (String × Span) :=
  match ofKind? parts .typeName with
  | some name => some (s.slice name.span, name.span)
  | none =>
    if kind == .companion && hasToken s parts "companion" then some ("Companion", span) else none

/-- The type that a node declares. -/
def typeOf? (s : Source) (parent : Option DeclarationId) (kind : Kind) (span : Span)
    (parts : List Node) : Option Declaration :=
  (typeNameOf? s kind span parts).map fun (name, anchor) =>
    { declarationOf s (typeKindOf s kind parts) span anchor name parent parts with
      superTypes :=
        (parts.filter fun part => part.kind == .delegation).filterMap (superTypeOf? s) }

/-- The property that a constructor's parameter declares. -/
def parameterProperty? (s : Source) (owner : DeclarationId) (node : Node) : Option Declaration := do
  if node.parts.any fun part => part.kind == .binding then
    let name ← ofKind? node.parts .name
    let property :=
      declarationOf s .field node.span name.span (s.slice name.span) (some owner) node.parts
    some { property with typeName := typeIn? s node.parts }
  else none

mutual

/-- The parameters of classes in a node, without those inside another one. -/
def classParameters : Node → List Node
  | .node kind role span parts =>
    if kind == .classParameter then [.node kind role span parts] else classParametersIn parts

/-- The parameters of classes in a forest, without those inside another one. -/
def classParametersIn : List Node → List Node
  | [] => []
  | t :: ts => classParameters t ++ classParametersIn ts

end

/-- The properties that the primary constructor of a class declares, the last one first. -/
def parameterProperties (s : Source) (owner : DeclarationId) (parts : List Node) :
    List Declaration :=
  match ofKind? parts .primaryConstructor with
  | some constructor =>
    ((classParametersIn constructor.parts).filterMap (parameterProperty? s owner)).reverse
  | none => []

/-- The nodes after the equals sign of a property. -/
def afterEquals (s : Source) : List Node → List Node
  | [] => []
  | t :: ts => if !t.isNamed && s.slice t.span == "=" then ts else afterEquals s ts

/-- The value of a property: the first phrase or comment after its equals sign. -/
def valueOf? (s : Source) (parts : List Node) : Option Node :=
  (afterEquals s parts).find? Tree.isNamed

/-- The field that a property declares. -/
def fieldOf? (s : Source) (parent : Option DeclarationId) (span : Span) (parts : List Node) :
    Option Declaration := do
  let declared ← ofKind? parts .variable
  let name ← ofKind? declared.parts .name
  some { declarationOf s .field span name.span (s.slice name.span) parent parts with
         typeName := typeIn? s declared.parts
         initializer := (valueOf? s parts).map fun value => expr s value false }

/-- The call on a span. A call of a capitalized name constructs an object. -/
def callOf? (s : Source) (span : Span) (parts : List Node) : Option Call :=
  (callee? s parts).map fun (receiver, name) =>
    let constructs := isCapitalized name
    { receiver := if constructs then typeReceiver receiver else receiver
      name
      arguments :=
        match ofKind? parts .callSuffix with
        | some suffix => (expr s suffix true).items
        | none => []
      kind := if constructs then .constructor else .method
      location := s.locate span span
      language := .kotlin }

mutual

/-- What a node yields. -/
def visit (s : Source) (context : Context) : Node → Harvest
  | .node kind _ span parts =>
    match kind with
    | .packageClause =>
      { package := (ofKind? parts .path).map fun path => Text.compact (s.slice path.span) }
    | .importClause => importOf s parts
    | .classDeclaration | .objectDeclaration | .companion =>
      match typeOf? s context.parent kind span parts with
      | some type =>
        { declarations := type :: parameterProperties s type.id parts } ++
          visitParts s { parent := some type.id } .classBody parts
      | none => visitAll s context parts
    | .property =>
      match if context.inFunction then none else fieldOf? s context.parent span parts with
      | some field =>
        -- a property has a value or a delegate, never both
        { declarations := [field] } ++
          (if (valueOf? s parts).isSome then visitValue s context false parts
            else visitParts s context .delegate parts)
      | none => visitAll s context parts
    | .function =>
      match ofKind? parts .name with
      | some name =>
        let method :=
          declarationOf s .method span name.span (s.slice name.span) context.parent parts
        { declarations := [method] } ++
          visitParts s { parent := some method.id, inFunction := true } .functionBody parts
      | none => visitAll s context parts
    | .call => { calls := (callOf? s span parts).toList } ++ visitAll s context parts
    | _ => visitAll s context parts

/-- What the nodes of a forest yield. -/
def visitAll (s : Source) (context : Context) : List Node → Harvest
  | [] => {}
  | t :: ts => visit s context t ++ visitAll s context ts

/-- What the parts of nodes of a kind yield. -/
def visitParts (s : Source) (context : Context) (kind : Kind) : List Node → Harvest
  | [] => {}
  | .node own _ _ parts :: ts =>
    (if own == kind then visitAll s context parts else {}) ++ visitParts s context kind ts

/-- What the value of a property yields; `found` says that its equals sign was passed. -/
def visitValue (s : Source) (context : Context) (found : Bool) : List Node → Harvest
  | [] => {}
  | t :: ts =>
    if found then if t.isNamed then visit s context t else visitValue s context found ts
    else visitValue s context (!t.isNamed && s.slice t.span == "=") ts

end

/-- The tree of a Kotlin file. -/
def tree (text : String) : Forest Kind := Grammar.read (tokens text)

/-- The outline of a Kotlin file. -/
def outline (path : Path) (text : String) : Outline :=
  (visitAll { path, text } {} (tree text)).toOutline path .kotlin

end AdLint.Kotlin
