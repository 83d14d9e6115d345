import AdLint.Glob.Reader
import AdLint.Path

/-!
# Ignore rules

A line of an ignore file is a pattern of paths below the directory of the file. A leading `!` takes
entries in again that an earlier line left out, a leading slash ties the pattern to the directory,
and a slash at the end keeps it to directories. A pattern without a slash inside matches at any
depth.

## Main definitions

* `IgnoreRule`: what a line says
* `IgnoreRule.ofPattern?`, `IgnoreRule.ofLine?`: the rule of a pattern and of a line
* `IgnoreRule.verdict?`: what rules say about an entry
* `seenFrom`: a path as seen from a directory
-/

namespace AdLint

/-- A rule of an ignore file. -/
structure IgnoreRule where
  glob : Glob
  /-- Whether the rule takes entries in instead of leaving them out. -/
  takesIn : Bool := false
  /-- Whether the rule is about directories only. -/
  onlyDirectories : Bool := false
  deriving Repr, Inhabited

namespace IgnoreRule

/-- Characters without blanks at the end. A blank after a backslash stays. -/
def withoutTrailingBlanks (cs : List Char) : List Char :=
  if (Text.beforeEnd? ['\\', ' '] cs).isSome then cs else Text.trimEndChars cs

/-- The text of the pattern of paths for a pattern of a rule, without a slash at either end. A
pattern without slashes matches at any depth, and one that ends in `/**` matches what is inside a
directory, not the directory. -/
def globText (anchored : Bool) (cs : List Char) : String :=
  let anyDepth := !anchored && !cs.contains '/' && cs != ['*', '*']
  let cs := if anyDepth then ['*', '*', '/'] ++ cs else cs
  String.ofList (if (Text.beforeEnd? ['/', '*', '*'] cs).isSome then cs ++ ['/', '*'] else cs)

/-- The rule of a pattern. -/
def ofPattern? (takesIn : Bool) (cs : List Char) : Option IgnoreRule :=
  let (anchored, cs) :=
    match cs with
    | '/' :: cs => (true, cs)
    | cs => (false, cs)
  let (onlyDirectories, cs) :=
    match cs.reverse with
    | '/' :: '\\' :: rest => (true, rest.reverse)
    | '/' :: rest => (true, rest.reverse)
    | _ => (false, cs)
  (Glob.parse? (globText anchored cs)).map fun glob => { glob, takesIn, onlyDirectories }

/-- The rule of a line. Comments, blank lines and patterns that cannot be read give none. -/
def ofLine? (line : String) : Option IgnoreRule :=
  match line.toList with
  | '#' :: _ => none
  | cs =>
    match withoutTrailingBlanks cs with
    | [] => none
    | '\\' :: '!' :: cs => ofPattern? false ('!' :: cs)
    | '\\' :: '#' :: cs => ofPattern? false ('#' :: cs)
    | '!' :: cs => ofPattern? true cs
    | cs => ofPattern? false cs

/-- The rule of a pattern that the settings leave out. -/
def ofExclusion? (pattern : String) : Option IgnoreRule :=
  ofPattern? false (withoutTrailingBlanks pattern.toList)

/-- The rules of an ignore file. A byte order mark at its start does not count. -/
def ofFile (text : String) : List IgnoreRule :=
  let cs := text.toList.dropWhile fun c => c.toNat == 0xFEFF
  (Text.splitAt '\n' (String.ofList cs)).filterMap ofLine?

/-- Whether a rule is about an entry. -/
def applies (rule : IgnoreRule) (path : String) (isDirectory : Bool) : Bool :=
  (isDirectory || !rule.onlyDirectories) && rule.glob.matches path

/-- What rules say about an entry: `true` to leave it out, `false` to take it in. The last rule
about it counts. -/
def verdict? (rules : List IgnoreRule) (path : String) (isDirectory : Bool) : Option Bool :=
  (rules.reverse.find? fun rule => rule.applies path isDirectory).map fun rule => !rule.takesIn

end IgnoreRule

/-- A path without the current directory in front. -/
def withoutDotSlash (path : String) : String :=
  String.ofList ((Text.afterStart? ['.', '/'] path.toList).getD path.toList)

/-- A path as seen from a directory. The text of the directory is taken off in front; a path that
does not begin with it, or that is a name alone, stays as it is. -/
def seenFrom (directory path : String) : String :=
  let directory := withoutDotSlash directory
  let path := withoutDotSlash path
  if (⟨directory⟩ : Path).same ⟨"."⟩ || !path.toList.contains '/' then path
  else
    match Text.afterStart? directory.toList path.toList with
    | some ('/' :: rest) => String.ofList rest
    | some rest => String.ofList rest
    | none => path

end AdLint
