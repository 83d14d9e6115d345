import AdLint.Expr

/-!
# Declarations and what else a file contributes

What is read from one file: its package and imports, the types, methods and fields it declares, the
calls it makes, and, for a manifest, the components it lists.

## Main definitions

* `Declaration`: a type, method or field
* `Call`: a call of a method or constructor
* `SourceFile`: the names a file sees through its package and imports
* `Outline`: all that one file contributes
-/

namespace AdLint

/-- The language a file is written in. -/
inductive Language where
  | kotlin
  | java
  | xml
  deriving DecidableEq, Repr, Inhabited

/-- The word for a language. -/
def Language.label : Language → String
  | kotlin => "kotlin"
  | java => "java"
  | xml => "xml"

/-- The kinds of declarations. -/
inductive DeclarationKind where
  | classType
  | interface
  | enum
  | object
  | companionObject
  | method
  | field
  deriving DecidableEq, Repr, Inhabited

namespace DeclarationKind

/-- The word for a kind. -/
def label : DeclarationKind → String
  | classType => "class"
  | interface => "interface"
  | enum => "enum"
  | object => "object"
  | companionObject => "companion object"
  | method => "method"
  | field => "field"

/-- Whether a declaration of this kind introduces a type. -/
def isType : DeclarationKind → Bool
  | method | field => false
  | _ => true

end DeclarationKind

/-- What identifies a declaration: its file and its byte range. -/
structure DeclarationId where
  file : Path
  start : Nat
  stop : Nat
  deriving DecidableEq, Repr, Inhabited

/-- Whether two identifiers denote one declaration; files compare by components. -/
def DeclarationId.same (a b : DeclarationId) : Bool :=
  a.file.same b.file && a.start == b.start && a.stop == b.stop

/-- A declaration. -/
structure Declaration where
  id : DeclarationId
  name : String
  kind : DeclarationKind
  location : Location
  language : Language
  /-- The declaration around this one. -/
  parent : Option DeclarationId := none
  annotations : List Annot := []
  /-- Keywords such as `public` and `static`. -/
  modifiers : List String := []
  /-- Types that a type extends or implements, as written. -/
  superTypes : List String := []
  /-- The type of a field or the result type of a method, as written. -/
  typeName : Option String := none
  initializer : Option Expr := none
  deriving Inhabited

namespace Declaration

/-- Whether a declaration introduces a type. -/
def isType (d : Declaration) : Bool := d.kind.isType

/-- The first annotation with this name. -/
def annotationNamed? (d : Declaration) (name : String) : Option Annot :=
  d.annotations.find? fun a => a.named name

/-- Whether a declaration has this keyword. -/
def hasModifier (d : Declaration) (modifier : String) : Bool := d.modifiers.contains modifier

/-- Whether a field can never change: `static final` in Java and `const` in Kotlin. -/
def isConstant (d : Declaration) : Bool :=
  match d.language with
  | .java => d.hasModifier "static" && d.hasModifier "final"
  | .kotlin => d.hasModifier "const"
  | .xml => false

end Declaration

/-- The two kinds of calls. -/
inductive CallKind where
  | method
  | constructor
  deriving DecidableEq, Repr, Inhabited

/-- The word for a kind of call. -/
def CallKind.label : CallKind → String
  | method => "method"
  | .constructor => "constructor"

/-- A call of a method or constructor. -/
structure Call where
  /-- What the call is made on, as written. -/
  receiver : Option String
  /-- The method, or the simple name of the type constructed. -/
  name : String
  arguments : List Expr
  kind : CallKind
  location : Location
  language : Language
  deriving Inhabited

/-- An import. -/
structure Import where
  path : String
  wildcard : Bool
  /-- The name that the import gives to what it imports, if it gives one. -/
  localName : Option String
  deriving DecidableEq, Repr, Inhabited

/-- The name that an import makes known in its file; a wildcard makes none known. -/
def Import.binds? (i : Import) : Option String :=
  if i.wildcard then none else some (i.localName.getD (Text.lastDotted i.path))

/-- A file, and the names it sees through its package and imports. -/
structure SourceFile where
  path : Path
  language : Language
  package : Option String := none
  imports : List Import := []
  deriving Repr, Inhabited

namespace SourceFile

/-- The first import that makes this name known. -/
def importOf? (f : SourceFile) (name : String) : Option Import :=
  f.imports.find? fun i => i.binds? == some name

/-- Whether the file imports everything from this path. -/
def importsAll (f : SourceFile) (path : String) : Bool :=
  f.imports.any fun i => i.wildcard && i.path == path

/-- Whether the file has a wildcard import. -/
def hasWildcard (f : SourceFile) : Bool := f.imports.any fun i => i.wildcard

end SourceFile

/-- A component that a manifest lists. -/
structure ManifestComponent where
  /-- The element, such as `service`. -/
  tag : String
  /-- The class, with its package where the manifest settles it. -/
  name : Option String
  process : Option String
  /-- The rules that the element asks to ignore. -/
  ignored : List String
  location : Location
  deriving Repr, Inhabited

/-- All that one file contributes. -/
structure Outline where
  file : SourceFile
  declarations : List Declaration := []
  calls : List Call := []
  components : List ManifestComponent := []
  deriving Inhabited

end AdLint
