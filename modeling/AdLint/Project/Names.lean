import AdLint.Project.Basic

/-!
# Resolving names

Which type or static member a name written in a file denotes is settled by the file's own types, its
explicit imports, its wildcard imports and its package, in this order; the first of these levels
that has an answer decides. A name that none of them settles is left alone.

## Main definitions

* `Project.resolveType?`: whether a written type denotes a given qualified type
* `Project.resolveStatic?`: whether an unqualified call denotes a static member of a given type
* `Project.qualifyType?`: the qualified type that a written type denotes
* `Project.qualifiedName?`: the qualified name of a declaration
-/

namespace AdLint

/-- How a name was matched to a qualified one. -/
inductive Resolution where
  /-- Qualified where it is written, or known through an explicit import. -/
  | exact
  /-- Known through a wildcard import or the package of the file. -/
  | inferred
  deriving DecidableEq, Repr, Inhabited

namespace Project

/-- A dotted name cut at its last dot. -/
def splitQualified? (name : String) : Option (String × String) :=
  (Text.cutAtLast? '.' name.toList).map fun (package, simple) =>
    (String.ofList package, String.ofList simple)

/-- The first type of this name that the file declares. -/
def localType? (p : Project) (file : Path) (name : String) : Option Declaration :=
  (p.typesNamed name).find? fun d => d.location.file.same file

/-- How the type `reference` written in `file` denotes the type `qualified`, if it can be shown
to. -/
def resolveType? (p : Project) (file : Path) (reference qualified : String) : Option Resolution :=
  let written := Text.compact reference
  if written == qualified then some .exact
  else do
    let (package, simple) ← splitQualified? qualified
    if written != simple || written.toList.contains '.' then none
    else if (p.localType? file simple).isSome then none
    else do
      let context ← p.file? file
      match context.importOf? simple with
      | some i => if i.path == qualified then some .exact else none
      | none =>
        if context.importsAll package || context.package == some package then some .inferred
        else none

/-- How an unqualified call of `member` in `file` denotes a static member of the type `qualified`,
if it can be shown to. -/
def resolveStatic? (p : Project) (file : Path) (member qualified : String) : Option Resolution := do
  let context ← p.file? file
  match context.importOf? member with
  | some i => if i.path == qualified ++ "." ++ member then some .exact else none
  | none => if context.importsAll qualified then some .inferred else none

/-- The names along the chain of parents, outermost first, if every parent is known. The bound is
the number of declarations that the chain can hold. -/
def outerNames? (p : Project) : Nat → Option DeclarationId → Option (List String)
  | _, none => some []
  | 0, some _ => none
  | n + 1, some id => do
    let outer ← p.find? id
    let names ← outerNames? p n outer.parent
    some (names ++ [outer.name])

/-- The name of a declaration with its package and the declarations around it. A declaration in a
file without a package has none. -/
def qualifiedName? (p : Project) (d : Declaration) : Option String := do
  let outer ← p.outerNames? (p.added.length + 1) d.parent
  let package ← p.packageOf? d.location.file
  some (".".intercalate (package :: outer ++ [d.name]))

/-- Whether some type of this name is declared in the package. -/
def declaredInPackage (p : Project) (package name : String) : Bool :=
  (p.typesNamed name).any fun d => p.packageOf? d.location.file == some package

/-- The qualified type that a type written in `file` denotes, when the file's own types, imports and
package settle it. With a wildcard import, a name that is not declared in the file's package is not
settled. -/
def qualifyType? (p : Project) (file : Path) (written : String) : Option String :=
  let name := Text.compact (String.ofList (TypeName.bare written))
  if name.toList.contains '.' then
    if Text.startsLower name then some name else none
  else
    match p.localType? file name with
    | some d => p.qualifiedName? d
    | none => do
      let context ← p.file? file
      match context.importOf? name with
      | some i => some i.path
      | none => do
        let package ← context.package
        if p.declaredInPackage package name || !context.hasWildcard then
          some (package ++ "." ++ name)
        else none

end Project

end AdLint
