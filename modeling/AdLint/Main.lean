import AdLint.Program

/-!
# The command

The command reads the files that a run may ask for, lets the program decide what to print and write,
and does so.
-/

namespace AdLint

/-- The names of a path from the top. -/
def namesOf (path : String) : List String :=
  (Text.splitAt '/' path).filter fun name => name != ""

/-- What an entry of a directory is, without following links. Entries that are neither files nor
directories are left out. -/
partial def readEntry? (path : String) : IO (Option FileNode) := do
  match (← (← IO.FS.realPath path).metadata).type with
  | .dir =>
    let entries ← (← IO.FS.realPath path).readDir
    let children ← entries.toList.filterMapM fun entry => do
      match (← entry.path.symlinkMetadata).type with
      | .symlink => return none
      | _ =>
        return (← readEntry? (path ++ "/" ++ entry.fileName)).map fun node => (entry.fileName, node)
    return some (.directory children)
  | .file => return some (.file (String.fromUTF8? (← IO.FS.readBinFile path)))
  | _ => return none

/-- The beginnings of a path up to each of its segments. -/
def beginnings (path : String) : List String :=
  let segments := Text.splitAt '/' path
  (List.range segments.length).map fun k => String.intercalate "/" (segments.take (k + 1))

/-- The names that lead to what is at a path, if there is something. -/
def placeOf? (path : String) : IO (Option (List String)) := do
  try return some (namesOf (← IO.FS.realPath path).toString)
  catch _ => return none

/-- What is at a path, if it can be read. -/
def readPath? (path : String) : IO (Option FileNode) := do
  try readEntry? path
  catch _ => return none

/-- The tree with a node, if there is one. -/
def addNode (t : FileTree) (place : List String) (node : Option FileNode) : FileTree :=
  match node with
  | some node => { t with top := t.top.put node place }
  | none => t

/-- The tree with the ignore files of a directory. -/
def addIgnoreFiles (t : FileTree) (directory : List String) : IO FileTree :=
  [".ignore", ".gitignore"].foldlM (fun t name => do
    let place := directory ++ [name]
    return addNode t place (← readPath? ("/" ++ String.intercalate "/" place))) t

/-- The tree with a directory and its ignore files, unless the directory is there. -/
def addDirectory (t : FileTree) (directory : List String) : IO FileTree :=
  if (t.top.get? directory).isSome then return t
  else addIgnoreFiles (addNode t directory (some (.directory []))) directory

/-- The tree with the directories that a path leads through. -/
def addWay (t : FileTree) (path : String) : IO FileTree :=
  ("." :: (beginnings path).dropLast).foldlM (fun t beginning => do
    match ← placeOf? beginning with
    | some place =>
      (List.range (place.length + 1)).foldlM (fun t k => addDirectory t (place.take k)) t
    | none => return t) t

/-- The tree with what a path leads to. -/
def addPath (t : FileTree) (path : Path) : IO FileTree := do
  let t ← addWay t path.text
  match ← placeOf? path.text with
  | some place =>
    let t ← (List.range place.length).foldlM (fun t k => addDirectory t (place.take k)) t
    return addNode t place (← readPath? path.text)
  | none => return t

/-- The tree of the files that a run may ask for. -/
def readFiles (c : CommandLine) : IO FileTree := do
  let here := namesOf (← IO.FS.realPath ".").toString
  let start ← addIgnoreFiles { top := .directory [], here } []
  let files := c.config.toList ++ c.baseline.toList ++ c.output.toList ++ c.generateBaseline.toList
  let t ← (c.project :: files).foldlM addPath start
  match c.settings t with
  | .ok s => (s.targets.map c.project.join).foldlM addPath t
  | .error _ => return t

/-- Writes the files that a run has changed. -/
def writeFiles (c : CommandLine) (before after : FileTree) : IO Unit := do
  for path in c.generateBaseline.toList ++ c.output.toList do
    if (after.read path).toOption != (before.read path).toOption then
      match after.read path with
      | .ok text => IO.FS.writeFile path.text text
      | .error _ => pure ()

/-- Carries out a command line. -/
def perform (words : List String) : IO UInt32 := do
  let stdout ← IO.getStdout
  let colors := (← stdout.isTty) && (← IO.getEnv "NO_COLOR").isNone
  let command := (CommandLine.parse words).toOption.getD {}
  let files ← readFiles command
  let ending := program words colors files
  stdout.putStr ending.output.stdout
  (← IO.getStderr).putStr ending.output.stderr
  writeFiles command files ending.output.files
  return UInt32.ofNat ending.exitCode

end AdLint

/-- The entry point of the command. -/
def main (words : List String) : IO UInt32 := AdLint.perform words
