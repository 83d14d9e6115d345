import AdLint.Path

/-!
# File trees

What a run reads and writes is a tree of files, seen from a working directory. A path leads from
that directory, or from the top if it is absolute, one segment at a time; every segment but the last
has to lead to a directory.

## Main definitions

* `FileNode`: a file, or a directory with what is in it
* `FileTree`: a tree and a working directory in it
* `FileTree.locate`: where a path leads
* `FileTree.read`, `FileTree.write`: the text of a file, and the tree with another text in it
-/

namespace AdLint

/-- A file or a directory. -/
inductive FileNode where
  /-- A file; `none` if its bytes are not the bytes of a text. -/
  | file (text : Option String)
  | directory (children : List (String × FileNode))
  deriving Repr, Inhabited

namespace FileNode

/-- Whether the node is a directory. -/
def isDirectory : FileNode → Bool
  | directory _ => true
  | file _ => false

/-- What is in a directory; a file holds nothing. -/
def children : FileNode → List (String × FileNode)
  | directory children => children
  | file _ => []

/-- The child with a name. -/
def child? (node : FileNode) (name : String) : Option FileNode :=
  (node.children.find? fun child => child.1 == name).map Prod.snd

/-- The node that names lead to. -/
def get? (node : FileNode) : List String → Option FileNode
  | [] => some node
  | name :: names => (node.child? name).bind fun child => child.get? names

/-- Children with one more, which takes the place of a child with its name. -/
def setChild (name : String) (child : FileNode) :
    List (String × FileNode) → List (String × FileNode)
  | [] => [(name, child)]
  | other :: rest => if other.1 == name then (name, child) :: rest
      else other :: setChild name child rest

/-- The node with another node where the names lead to. Directories that are missing on the way are
made. -/
def put (node new : FileNode) : List String → FileNode
  | [] => new
  | name :: names =>
    let child := (node.child? name).getD (directory [])
    directory (setChild name (child.put new names) node.children)

mutual

/-- The files at and below a node, with the names that lead to them. -/
def files : FileNode → List (List String)
  | file _ => [[]]
  | directory children => filesIn children

/-- The files at and below some children. -/
def filesIn : List (String × FileNode) → List (List String)
  | [] => []
  | (name, child) :: rest => child.files.map (name :: ·) ++ filesIn rest

end

end FileNode

/-- Why a file cannot be read or written. -/
inductive FileError where
  | missing
  | notDirectory
  | isDirectory
  | notText
  deriving DecidableEq, Repr, Inhabited

/-- What is said about an error. -/
def FileError.message : FileError → String
  | missing => "No such file or directory (os error 2)"
  | notDirectory => "Not a directory (os error 20)"
  | isDirectory => "Is a directory (os error 21)"
  | notText => "stream did not contain valid UTF-8"

/-- A tree of files and a working directory in it. -/
structure FileTree where
  top : FileNode
  /-- The names that lead from the top to the working directory. -/
  here : List String
  deriving Repr, Inhabited

namespace FileTree

/-- Where a segment of a path leads from a directory. -/
def follow (t : FileTree) (names : List String) (segment : String) :
    Except FileError (List String) :=
  match t.top.get? names with
  | some (.directory _) =>
    if segment == "" || segment == "." then .ok names
    else if segment == ".." then .ok names.dropLast
    else
      let next := names ++ [segment]
      if (t.top.get? next).isSome then .ok next else .error .missing
  | some (.file _) => .error .notDirectory
  | none => .error .missing

/-- The names that a path starts from. -/
def origin (t : FileTree) (path : Path) : List String := if path.isAbsolute then [] else t.here

/-- The names that lead from the top to where a path leads. -/
def locate (t : FileTree) (path : Path) : Except FileError (List String) :=
  if path.text == "" then .error .missing
  else (Text.splitAt '/' path.text).foldlM t.follow (t.origin path)

/-- The node that a path leads to. -/
def node? (t : FileTree) (path : Path) : Option FileNode :=
  match t.locate path with
  | .ok names => t.top.get? names
  | .error _ => none

/-- Whether a path leads to a file. -/
def isFile (t : FileTree) (path : Path) : Bool := (t.node? path).any fun node => !node.isDirectory

/-- The text of a file. -/
def read (t : FileTree) (path : Path) : Except FileError String := do
  match t.top.get? (← t.locate path) with
  | some (.file (some text)) => .ok text
  | some (.file none) => .error .notText
  | some (.directory _) => .error .isDirectory
  | none => .error .missing

/-- The tree with a text in a file. The directory of the file has to be there. -/
def write (t : FileTree) (path : Path) (text : String) : Except FileError FileTree := do
  let segments := Text.splitAt '/' path.text
  let parent ← segments.dropLast.foldlM t.follow (t.origin path)
  let name := segments.getLastD ""
  match t.top.get? parent with
  | some (.directory _) =>
    if path.text == "" then .error .missing
    else if name == "" || name == "." || name == ".." then .error .isDirectory
    else
      match t.top.get? (parent ++ [name]) with
      | some (.directory _) => .error .isDirectory
      | _ => .ok { t with top := t.top.put (.file (some text)) (parent ++ [name]) }
  | some (.file _) => .error .notDirectory
  | none => .error .missing

end FileTree

end AdLint
