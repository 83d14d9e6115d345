import AdLint.FileKind
import AdLint.FileTree
import AdLint.Ignore
import AdLint.Settings.Basic

/-!
# Discovery of files

The files of a project are those of a kind that is read, below the targets of the settings or below
the project if there are none. An entry is left out, with all that is below it,

* if an exclusion of the settings matches it,
* or else if the nearest ignore file with a rule about it says so; files named `.ignore` come before
  files named `.gitignore`,
* or else, if no ignore file takes it in, if its name starts with a dot.

A target itself is never left out.

## Main definitions

* `walk`: the files below a target
* `discover`: the files of a project
-/

namespace AdLint

/-- Why the files of a project cannot be found. -/
inductive DiscoveryError where
  | badExclusion (pattern : String)
  deriving DecidableEq, Repr, Inhabited

/-- What is said about an error. -/
def DiscoveryError.message : DiscoveryError → String
  | badExclusion pattern => "Invalid exclude pattern '" ++ pattern ++ "'"

/-- A walk below a target. -/
structure Walk where
  tree : FileTree
  /-- The project, and the rules for what the settings leave out of it. -/
  project : Path
  exclusions : List IgnoreRule
  target : Path
  /-- The names that lead from the top of the tree to the target. -/
  place : List String

namespace Walk

/-- The path of an entry below the target. -/
def path (w : Walk) (names : List String) : Path :=
  names.foldl (fun p name => p.join ⟨name⟩) w.target

/-- The rules of an ignore file in a directory. -/
def rulesIn (w : Walk) (fileName : String) (directory : List String) : List IgnoreRule :=
  match w.tree.top.get? (directory ++ [fileName]) with
  | some (.file (some text)) => IgnoreRule.ofFile text
  | _ => []

/-- The path of an entry as the rules of the entries see it. -/
def shown (w : Walk) (names : List String) : String := withoutDotSlash (w.path names).text

/-- What the ignore files with a name say about an entry, from the nearest directory upwards: first
those between the entry and the target, then those above the target. -/
def verdict? (w : Walk) (fileName : String) (names : List String) (isDirectory : Bool) :
    Option Bool :=
  let below := (List.range names.length).reverse.map fun k =>
    let directory := names.take k
    IgnoreRule.verdict? (w.rulesIn fileName (w.place ++ directory))
      (seenFrom (w.path directory).text (w.shown names)) isDirectory
  let above := (List.range w.place.length).reverse.map fun k =>
    IgnoreRule.verdict? (w.rulesIn fileName (w.place.take k))
      (String.intercalate "/" (w.place.drop k ++ names)) isDirectory
  (below ++ above).findSome? id

/-- Whether a name starts with a dot. -/
def isHidden (names : List String) : Bool := (names.getLastD "").toList.head? == some '.'

/-- Whether the walk leaves an entry out. -/
def leavesOut (w : Walk) (names : List String) (isDirectory : Bool) : Bool :=
  let excluded :=
    IgnoreRule.verdict? w.exclusions (seenFrom w.project.text (w.shown names)) isDirectory
  let ignored :=
    (w.verdict? ".ignore" names isDirectory).or (w.verdict? ".gitignore" names isDirectory)
  (excluded.or ignored).getD (isHidden names)

/-- Whether the walk comes to a file: neither the file nor a directory on the way is left out. -/
def reaches (w : Walk) (names : List String) : Bool :=
  (List.range names.length).all fun k => !w.leavesOut (names.take (k + 1)) (k + 1 < names.length)

end Walk

/-- The files below a target, and the target itself if it is a file. A dash alone stands for the
standard input, which is no file. -/
def walk (t : FileTree) (project : Path) (exclusions : List IgnoreRule) (target : Path) :
    List Path :=
  match t.locate target with
  | .ok place =>
    let w : Walk := { tree := t, project, exclusions, target, place }
    if target.same ⟨"-"⟩ then []
    else
      match t.top.get? place with
      | some node => (node.files.filter w.reaches).map w.path
      | none => []
  | .error _ => []

/-- Neighbours that are the same path become one. -/
def mergeNeighbours : List Path → List Path
  | [] => []
  | p :: rest =>
    match mergeNeighbours rest with
    | q :: others => if p.same q then p :: others else p :: q :: others
    | [] => [p]

/-- The targets of a project that exist. -/
def targetsOf (t : FileTree) (s : Settings) (project : Path) : List Path :=
  if s.targets.isEmpty then [project]
  else (s.targets.map project.join).filter fun target => (t.node? target).isSome

/-- The rules for what the settings leave out. -/
def exclusionsOf (s : Settings) : Except DiscoveryError (List IgnoreRule) :=
  s.exclude.mapM fun pattern =>
    match IgnoreRule.ofExclusion? pattern with
    | some rule => .ok rule
    | none => .error (.badExclusion pattern)

/-- The files of a project that are read, in the order of their paths. -/
def discover (t : FileTree) (s : Settings) (project : Path) :
    Except DiscoveryError (List Path) := do
  let exclusions ← exclusionsOf s
  let found := (targetsOf t s project).flatMap (walk t project exclusions)
  let supported := found.filter fun path => (FileKind.ofPath? path).isSome
  .ok (mergeNeighbours (supported.mergeSort fun p q => (p.compare q).isLE))

end AdLint
