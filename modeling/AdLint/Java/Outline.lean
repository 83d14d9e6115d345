import AdLint.Java.Grammar.Declaration
import AdLint.Java.Lexicon
import AdLint.Java.Meaning
import AdLint.Source.Harvest

/-!
# The outline of a Java file

A visit of the tree collects the package, the imports, the declarations and the calls. Of a type or
a method only the body is visited, and of a field only the values of its variables. A call comes
before the calls in its parts.

## Main definitions

* `visit`: what a node yields
* `outline`: the outline of a Java file
-/

namespace AdLint.Java

/-- The text of the first part that is a name, blanks removed. -/
def clauseName? (s : Source) (parts : List Node) : Option String :=
  (parts.find? fun part => part.kind == .name).map fun part => Text.compact (s.slice part.span)

/-- What an import yields. -/
def importOf (s : Source) (parts : List Node) : Harvest :=
  match clauseName? s parts with
  | some path =>
    let wildcard := parts.any fun part => part.kind == .star
    { imports := [{ path, wildcard, localName := none }] }
  | none => {}

/-- The types that a part of a type's head names. -/
def superTypesIn (s : Source) (part : Node) : List String :=
  let written := fun (type : Node) => Text.compact (s.slice type.span)
  match part.kind with
  | .superclass => (part.namedParts.take 1).map written
  | .interfaces =>
    match part.parts.find? fun list => list.kind == .typeList with
    | some list => list.namedParts.map written
    | none => []
  | _ => []

/-- The keywords before a declaration. -/
def keywordsOf (s : Source) (parts : List Node) : List String :=
  match parts.find? fun part => part.kind == .modifiers with
  | some list => (list.parts.filter fun part => !part.isNamed).map fun part => s.slice part.span
  | none => []

/-- The annotations before a declaration. -/
def annotsOf (s : Source) (parts : List Node) : List Annot :=
  match parts.find? fun part => part.kind == .modifiers with
  | some list => (list.parts.filter fun part => part.kind == .annot).map (annot s)
  | none => []

/-- The first of some parts that plays a role. -/
def inRole? (parts : List Node) (role : Role) : Option Node :=
  parts.find? fun part => part.role == role

/-- The declaration on `identity` that a node writes on `span` with these parts; `name` is its
name. -/
def declarationOf (s : Source) (kind : DeclarationKind) (identity span : Span) (name : Node)
    (parent : Option DeclarationId) (parts : List Node) : Declaration :=
  { id := s.identify identity
    name := s.slice name.span
    kind
    location := s.locate span name.span
    language := .java
    parent
    annotations := annotsOf s parts
    modifiers := keywordsOf s parts }

/-- The type that a declaration names. -/
def typeOf? (s : Source) (parts : List Node) : Option String :=
  (inRole? parts .type).map fun type => Text.compact (s.slice type.span)

/-- The expressions of the arguments of a call. -/
def callArguments (s : Source) (parts : List Node) : List Expr :=
  match inRole? parts .arguments with
  | some list => list.namedParts.map (expr s)
  | none => []

/-- The call of a method on a span. -/
def invocationOf (s : Source) (span : Span) (parts : List Node) : Harvest :=
  match inRole? parts .name with
  | some name =>
    { calls :=
        [{ receiver := (inRole? parts .receiver).map fun r => Text.compact (s.slice r.span)
           name := s.slice name.span
           arguments := callArguments s parts
           kind := .method
           location := s.locate span span
           language := .java }] }
  | none => {}

/-- The call of a constructor on a span. -/
def creationOf (s : Source) (span : Span) (parts : List Node) : Harvest :=
  match inRole? parts .type with
  | some type =>
    { calls :=
        [{ receiver := none
           name := TypeName.simple (Text.compact (s.slice type.span))
           arguments := callArguments s parts
           kind := .constructor
           location := s.locate span span
           language := .java }] }
  | none => {}

/-- The field that a declarator on `span` makes in a declaration on `whole` with these parts. -/
def fieldOf (s : Source) (parent : Option DeclarationId) (whole : Span) (parts : List Node)
    (span : Span) (declarator : List Node) : Harvest :=
  match inRole? declarator .name with
  | some name =>
    { declarations :=
        [{ declarationOf s .field span whole name parent parts with
           typeName := typeOf? s parts
           initializer := (inRole? declarator .value).map (expr s) }] }
  | none => {}

mutual

/-- What a node yields, inside the declaration `parent`. -/
def visit (s : Source) (parent : Option DeclarationId) : Node → Harvest
  | .node kind _ span parts =>
    match kind with
    | .packageClause => { package := clauseName? s parts }
    | .importClause => importOf s parts
    | .typeDeclaration type =>
      match inRole? parts .name with
      | some name =>
        let declaration :=
          { declarationOf s type span span name parent parts with
            superTypes := parts.flatMap (superTypesIn s) }
        { declarations := [declaration] } ++ visitBodies s (some declaration.id) parts
      | none => visitAll s parent parts
    | .method =>
      match inRole? parts .name with
      | some name =>
        let declaration :=
          { declarationOf s .method span span name parent parts with typeName := typeOf? s parts }
        { declarations := [declaration] } ++ visitBodies s (some declaration.id) parts
      | none => visitAll s parent parts
    | .field => visitDeclarators s parent (fieldOf s parent span parts) parts
    | .invocation => invocationOf s span parts ++ visitAll s parent parts
    | .creation => creationOf s span parts ++ visitAll s parent parts
    | _ => visitAll s parent parts

/-- What the nodes of a forest yield. -/
def visitAll (s : Source) (parent : Option DeclarationId) : List Node → Harvest
  | [] => {}
  | t :: ts => visit s parent t ++ visitAll s parent ts

/-- What the parts of bodies yield. -/
def visitBodies (s : Source) (parent : Option DeclarationId) : List Node → Harvest
  | [] => {}
  | .node _ role _ parts :: ts =>
    (if role == .body then visitAll s parent parts else {}) ++ visitBodies s parent ts

/-- What declarators yield: each the field made of it by `field`, then what its value yields. -/
def visitDeclarators (s : Source) (parent : Option DeclarationId)
    (field : Span → List Node → Harvest) : List Node → Harvest
  | [] => {}
  | .node kind _ span parts :: ts =>
    (if kind == .declarator then field span parts ++ visitValues s parent parts else {}) ++
      visitDeclarators s parent field ts

/-- What values yield. -/
def visitValues (s : Source) (parent : Option DeclarationId) : List Node → Harvest
  | [] => {}
  | t :: ts => (if t.role == .value then visit s parent t else {}) ++ visitValues s parent ts

end

/-- The tree of a Java file. -/
def tree (text : String) : Forest Kind := Grammar.read (lexicon.tokens text)

/-- The outline of a Java file. -/
def outline (path : Path) (text : String) : Outline :=
  (visitAll { path, text } none (tree text)).toOutline path .java

end AdLint.Java
