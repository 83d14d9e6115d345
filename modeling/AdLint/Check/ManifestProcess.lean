import AdLint.Finding
import AdLint.Project.Basic
import AdLint.Settings.Basic

/-!
# Processes of manifest components

Components of the module must run in its own process. The check looks at components whose class lies
under the configured package and that do not ask to be ignored.
-/

namespace AdLint.ManifestProcess

/-- Whether a component asks that the rule be ignored. -/
def isIgnored (component : ManifestComponent) : Bool :=
  let rule := Rule.foreignProcess
  component.ignored.any fun id =>
    id == rule.name || Text.sameIgnoringAsciiCase id rule.code || id == "all"

/-- The finding about a component, if it runs elsewhere. -/
def finding? (s : ManifestSettings) (component : ManifestComponent) : Option Finding := do
  let name ← component.name
  if !Text.beginsWith name s.packageStart || isIgnored component then none
  else
    let required := "android:process=\"" ++ s.requiredProcess ++ "\""
    match component.process with
    | some process =>
      if process == s.requiredProcess then none
      else some { Finding.ofRule .foreignProcess component.location name with
        message :=
          s!"<{component.tag}> {name} runs in process '{process}' but must declare {required}" }
    | none => some { Finding.ofRule .foreignProcess component.location name with
        message := s!"<{component.tag}> {name} must declare {required}" }

/-- The findings about the components of a project. -/
def findings (s : ManifestSettings) (p : Project) : List Finding :=
  p.components.filterMap (finding? s)

end AdLint.ManifestProcess
