import AdLint.Finding
import AdLint.Project.Constant
import AdLint.Settings.Basic

/-!
# Names of created files

Files that the module creates must carry a name that matches a pattern, so that a cleanup can find
them when the module is rolled back. The check looks at calls that name a file in a known argument,
and judges the text that the name is known to begin with. A name of which nothing is known is left
alone.
-/

namespace AdLint.FileNaming

/-- Methods whose first argument names a file. -/
def namedByFirst : List String :=
  ["getSharedPreferences", "getDatabasePath", "openFileOutput", "deleteDatabase",
    "openOrCreateDatabase", "getDir", "getFileStreamPath"]

/-- The argument of a call that names a file. -/
def nameArgument? (call : Call) : Option Expr :=
  match call.kind with
  | .constructor =>
    if call.name == "File" && call.arguments.length == 2 then call.arguments[1]? else none
  | .method =>
    if call.name == "databaseBuilder" then
      let onRoom := call.receiver.any fun r => r == "Room" || Text.endsIn r ".Room"
      if onRoom && call.arguments.length == 3 then call.arguments[2]? else none
    else if namedByFirst.contains call.name then call.arguments[0]?
    else none

/-- The finding about a call, if the name it gives a file does not match the pattern. -/
def finding? (p : Project) (written : String) (pattern : Pattern) (call : Call) :
    Option Finding := do
  let argument ← nameArgument? call
  let name ← p.knownStart? (p.innermost? call.location) argument
  if pattern.isMatch name then none
  else
    some { Finding.ofRule .unprefixedFile call.location name with
      message := s!"File name '{name}' passed to {call.name}() must match '{written}'" }

/-- The findings about the calls of a project. A pattern that cannot be read finds nothing. -/
def findings (s : FileNamingSettings) (p : Project) : List Finding :=
  match Pattern.parse? s.requiredPattern with
  | some pattern => p.calls.filterMap (finding? p s.requiredPattern pattern)
  | none => []

end AdLint.FileNaming
