import AdLint.Declaration

/-!
# Projects

A project is what all its files contribute. It remembers every declaration that was added, in order,
and answers each question by a scan of that record. A declaration added again under the identifier
of an earlier one takes its place in every answer; the earlier entry of the record then stands for
the later declaration.

## Main definitions

* `Project.addDeclaration`, `Project.addFile`, `Project.merge`: how a project grows
* `Project.declarations`, `Project.types`, `Project.typesNamed`: what it declares
* `Project.children`, `Project.fieldsOf`: what stands in a declaration
* `Project.enclosing`: the declarations around a location
-/

namespace AdLint

/-- What all files of a project contribute. -/
structure Project where
  /-- Every declaration ever added, in order. -/
  added : List Declaration := []
  calls : List Call := []
  /-- Every file ever added, in order. -/
  filesAdded : List SourceFile := []
  components : List ManifestComponent := []
  deriving Inhabited

/-- The elements of a list without those that repeat an earlier one. -/
def distinctBy {α : Type} (same : α → α → Bool) : List α → List α
  | [] => []
  | x :: xs => x :: (distinctBy same xs).filter fun y => !same x y

namespace Project

/-- The project with one more declaration. -/
def addDeclaration (p : Project) (d : Declaration) : Project :=
  { p with added := p.added ++ [d] }

/-- The project with one more call. -/
def addCall (p : Project) (c : Call) : Project := { p with calls := p.calls ++ [c] }

/-- The project with one more file, in place of an earlier one of the same path. -/
def addFile (p : Project) (f : SourceFile) : Project :=
  { p with filesAdded := p.filesAdded ++ [f] }

/-- The project with one more manifest component. -/
def addComponent (p : Project) (c : ManifestComponent) : Project :=
  { p with components := p.components ++ [c] }

/-- The project with all that one file contributes. -/
def merge (p : Project) (o : Outline) : Project :=
  { added := p.added ++ o.declarations
    calls := p.calls ++ o.calls
    filesAdded := p.filesAdded ++ [o.file]
    components := p.components ++ o.components }

/-- The declaration with this identifier: the one added last. -/
def find? (p : Project) (id : DeclarationId) : Option Declaration :=
  p.added.reverse.find? fun d => d.id.same id

/-- The declarations that entries of the record stand for. -/
def current (p : Project) (entries : List Declaration) : List Declaration :=
  entries.filterMap fun d => p.find? d.id

/-- The declarations, in the order in which their identifiers were first added. -/
def declarations (p : Project) : List Declaration :=
  p.current (distinctBy (fun a b => a.id.same b.id) p.added)

/-- The declarations that introduce a type. -/
def types (p : Project) : List Declaration := p.declarations.filter Declaration.isType

/-- The types of this name. -/
def typesNamed (p : Project) (name : String) : List Declaration :=
  p.current (p.added.filter fun d => d.isType && d.name == name)

/-- The declarations that stand directly in the one with this identifier. -/
def children (p : Project) (id : DeclarationId) : List Declaration :=
  p.current (p.added.filter fun d => d.parent.any fun parent => parent.same id)

/-- The declarations located in this file. -/
def inFile (p : Project) (file : Path) : List Declaration :=
  p.current (p.added.filter fun d => d.location.file.same file)

/-- The declaration around `d`. -/
def parentOf? (p : Project) (d : Declaration) : Option Declaration := d.parent.bind p.find?

/-- The fields of a type, those of its companion objects included, in order. -/
def fieldsOf (p : Project) (owner : Declaration) : List Declaration :=
  (p.children owner.id).flatMap fun child =>
    match child.kind with
    | .field => [child]
    | .companionObject => (p.children child.id).filter fun d => d.kind == .field
    | _ => []

/-- The file with this path. -/
def file? (p : Project) (path : Path) : Option SourceFile :=
  p.filesAdded.reverse.find? fun f => f.path.same path

/-- The package of the file with this path. -/
def packageOf? (p : Project) (path : Path) : Option String :=
  (p.file? path).bind fun f => f.package

/-- The number of files. -/
def fileCount (p : Project) : Nat :=
  (distinctBy (fun a b : SourceFile => a.path.same b.path) p.filesAdded).length

/-- The declarations whose range contains a location, longest range first. -/
def enclosing (p : Project) (location : Location) : List Declaration :=
  ((p.inFile location.file).filter fun d => d.location.contains location).mergeSort
    fun a b => b.location.length ≤ a.location.length

/-- The innermost declaration around a location. -/
def innermost? (p : Project) (location : Location) : Option Declaration :=
  (p.enclosing location).getLast?

/-- The innermost type around a location. -/
def enclosingType? (p : Project) (location : Location) : Option Declaration :=
  ((p.enclosing location).filter Declaration.isType).getLast?

/-- The chain of declarations around `d`, itself first. A chain of distinct declarations is no
longer than the record, so that many steps reach its end. -/
def ancestry (p : Project) (d : Declaration) : List Declaration :=
  climb p.added.length d
where
  /-- The chain cut off after `n` further steps. -/
  climb : Nat → Declaration → List Declaration
    | 0, d => [d]
    | n + 1, d =>
      match p.parentOf? d with
      | some parent => d :: climb n parent
      | none => [d]

end Project

end AdLint
