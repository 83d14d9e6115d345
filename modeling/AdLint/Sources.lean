import AdLint.FileKind
import AdLint.FileTree

/-!
# Sources of a project

A project is read from files one after the other, or by tasks that run side by side and finish in
any order. Each task keeps its result in a place of its own, and the results are put together in the
order of the files, so both ways give the same project. A file that cannot be read is left out.

## Main definitions

* `Project.ofFiles`: the project that some files make up
* `Project.ofTasks`: the project that tasks make up which finish in some order
-/

namespace AdLint

/-- The outline of a file. -/
def readOutline? (t : FileTree) (path : Path) : Option Outline :=
  match t.read path with
  | .ok text => (outlineOf path text).toOption
  | .error _ => none

namespace Project

/-- The project with one more file. -/
def addFrom (t : FileTree) (p : Project) (path : Path) : Project :=
  match readOutline? t path with
  | some outline => p.merge outline
  | none => p

/-- The project that some files make up. -/
def ofFiles (t : FileTree) (files : List Path) : Project := files.foldl (addFrom t) {}

/-- The results of tasks after the task with a number has finished. -/
def finishTask (t : FileTree) (files : List Path) (results : List (Option Outline)) (number : Nat) :
    List (Option Outline) :=
  results.set number (files[number]?.bind (readOutline? t))

/-- The project that tasks make up, one for each file, which finish in some order. -/
def ofTasks (t : FileTree) (files : List Path) (order : List Nat) : Project :=
  let results := order.foldl (finishTask t files) (List.replicate files.length none)
  (results.filterMap id).foldl Project.merge {}

end Project

end AdLint
