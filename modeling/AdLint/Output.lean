import AdLint.FileTree
import AdLint.Report.Styled

/-!
# Output

What a run prints and writes: results, notices and files.
-/

namespace AdLint

/-- What was printed so far, and the files as they are now. -/
structure Output where
  files : FileTree
  /-- The results. -/
  stdout : String := ""
  /-- The notices. -/
  stderr : String := ""
  deriving Inhabited

namespace Output

/-- The output with more results. -/
def print (o : Output) (colors : Bool) (lines : List Line) : Output :=
  { o with stdout := o.stdout ++ printed colors lines }

/-- The output with one more notice. -/
def notify (o : Output) (colors : Bool) (line : Line) : Output :=
  { o with stderr := o.stderr ++ printed colors [line] }

end Output

end AdLint
