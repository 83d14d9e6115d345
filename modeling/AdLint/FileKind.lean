import AdLint.Java.Outline
import AdLint.Kotlin.Outline
import AdLint.Manifest.Outline
import AdLint.Project.Basic

/-!
# Files that are read

The name of a file tells how it is read: manifests by their full name, sources by their extension.
Other files are not read.

## Main definitions

* `FileKind.ofPath?`: how a file is read
* `FileKind.outline`: the outline of a text
* `Project.ofSources`: the project that some sources make up
-/

namespace AdLint

/-- The kinds of files that are read. -/
inductive FileKind where
  | kotlin
  | java
  | manifest
  deriving DecidableEq, Repr, Inhabited

namespace FileKind

/-- The word for a kind of file. -/
def label : FileKind → String
  | kotlin => "kotlin"
  | java => "java"
  | manifest => "manifest"

/-- How the file at a path is read. -/
def ofPath? (path : Path) : Option FileKind :=
  if path.fileName? == some "AndroidManifest.xml" then some manifest
  else if path.extension? == some "kt" then some kotlin
  else if path.extension? == some "java" then some java
  else none

/-- The outline of a text. Only a manifest can fail to be read. -/
def outline (kind : FileKind) (path : Path) (text : String) : Except Manifest.MarkupError Outline :=
  match kind with
  | kotlin => .ok (Kotlin.outline path text)
  | java => .ok (Java.outline path text)
  | manifest => Manifest.outline path text

end FileKind

/-- Why a source is left out of a project. -/
inductive SkipReason where
  | unsupported
  | markup (error : Manifest.MarkupError)
  deriving DecidableEq, Repr

/-- The outline of a source. -/
def outlineOf (path : Path) (text : String) : Except SkipReason Outline :=
  match FileKind.ofPath? path with
  | some kind =>
    match kind.outline path text with
    | .ok outline => .ok outline
    | .error error => .error (.markup error)
  | none => .error .unsupported

namespace Project

/-- The project with one more source, and the sources left out with one more if it cannot be
read. -/
def addSource (p : Project × List (Path × SkipReason)) (source : Path × String) :
    Project × List (Path × SkipReason) :=
  match outlineOf source.1 source.2 with
  | .ok outline => (p.1.merge outline, p.2)
  | .error reason => (p.1, p.2 ++ [(source.1, reason)])

/-- The project that some sources make up, and the sources left out of it. -/
def ofSources (sources : List (Path × String)) : Project × List (Path × SkipReason) :=
  sources.foldl addSource ({}, [])

end Project

end AdLint
