import AdLint.Finding
import AdLint.Project.Names
import AdLint.Settings.Basic

/-!
# Restricted interfaces

Some platform classes must be used through wrappers only. A call is reported when the class it is
made on, or the static member it names, can be shown to be the restricted one; a call that cannot be
tied to it is left alone, and so is one inside a class that is allowed to make it.
-/

namespace AdLint

/-- A platform class that only some classes may call. -/
structure RestrictedApi where
  rule : Rule
  qualified : String
  allowed : List String
  deriving Repr, Inhabited

namespace RestrictedApi

/-- The system properties. -/
def systemProperties (s : RestrictedApiSettings) : RestrictedApi :=
  { rule := .systemPropertiesCall
    qualified := "android.os.SystemProperties"
    allowed := s.systemPropertiesAllowed }

/-- The device configuration. -/
def deviceConfig (s : RestrictedApiSettings) : RestrictedApi :=
  { rule := .deviceConfigCall
    qualified := "android.provider.DeviceConfig"
    allowed := s.deviceConfigAllowed }

/-- How a call is tied to the restricted class, if it is. -/
def resolve? (api : RestrictedApi) (p : Project) (call : Call) : Option Resolution :=
  match call.receiver with
  | some receiver => p.resolveType? call.location.file receiver api.qualified
  | none => p.resolveStatic? call.location.file call.name api.qualified

/-- How sure a finding is that rests on this resolution. -/
def confidenceOf : Resolution → Confidence
  | .exact => .high
  | .inferred => .medium

/-- The innermost type around a call, or the name of its file without the extension. -/
def ownerOf (types : List Declaration) (call : Call) : String :=
  match types.getLast? with
  | some d => d.name
  | none => call.location.file.stem?.getD ""

/-- The finding about a call, if it is to be reported. -/
def finding? (api : RestrictedApi) (p : Project) (call : Call) : Option Finding := do
  if call.kind != .method then none
  else
    let resolution ← api.resolve? p call
    let types := (p.enclosing call.location).filter Declaration.isType
    if types.any fun d => api.allowed.contains d.name then none
    else
      let owner := ownerOf types call
      let simple := Text.lastDotted api.qualified
      some { Finding.ofRule api.rule call.location owner with
        confidence := confidenceOf resolution
        message :=
          s!"'{owner}' calls {simple}.{call.name}() directly; " ++
            "use the AdServices flag wrappers instead" }

/-- The findings about the calls of a project. -/
def findings (api : RestrictedApi) (p : Project) : List Finding :=
  p.calls.filterMap (api.finding? p)

end RestrictedApi

end AdLint
