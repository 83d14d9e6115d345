import AdLint.Document
import AdLint.Settings.Basic

/-!
# Settings from documents

Every part of the settings is optional and keeps its default when it is left out. Keys that are not
known are ignored.
-/

namespace AdLint

open Document

/-- The severity that a document names, in lower case exactly. -/
def Document.asSeverity? (d : Document) : Option Severity := d.asText?.bind Severity.ofLabel?

/-- The severities of rules. Of two entries for one word the last counts. -/
def Document.asSeverities? : Document → Option (List (String × Severity))
  | table entries => do
    let pairs ← entries.mapM fun entry => do some (entry.1, ← entry.2.asSeverity?)
    some (pairs.foldl (fun kept pair => kept.filter (fun other => other.1 != pair.1) ++ [pair]) [])
  | plain "" => some []
  | _ => none

/-- The settings of the rules in a document. -/
def RuleSettings.ofDocument? (d : Document) : Option RuleSettings := do
  let entries ← d.asRecord? ["disabled", "enabled", "severity"]
  some
    { disabled := ← field? entries "disabled" [] asTexts?
      enabled := ← field? entries "enabled" [] asTexts?
      severity := ← field? entries "severity" [] asSeverities? }

/-- The settings of the Room check in a document. -/
def RoomSettings.ofDocument? (d : Document) : Option RoomSettings := do
  let default : RoomSettings := {}
  let entries ← d.asRecord?
    ["base_class", "database_annotation", "migration_annotation", "version_field",
      "registration_class"]
  some
    { baseClass := ← field? entries "base_class" default.baseClass asText?
      databaseAnnotation :=
        ← field? entries "database_annotation" default.databaseAnnotation asText?
      migrationAnnotation :=
        ← field? entries "migration_annotation" default.migrationAnnotation asText?
      versionField := ← field? entries "version_field" default.versionField asText?
      registrationClass := ← field? entries "registration_class" default.registrationClass asText? }

/-- The settings of the checks of restricted classes in a document. -/
def RestrictedApiSettings.ofDocument? (d : Document) :
    Option RestrictedApiSettings := do
  let default : RestrictedApiSettings := {}
  let entries ← d.asRecord? ["system_properties_allowed", "device_config_allowed"]
  some
    { systemPropertiesAllowed :=
        ← field? entries "system_properties_allowed" default.systemPropertiesAllowed asTexts?
      deviceConfigAllowed :=
        ← field? entries "device_config_allowed" default.deviceConfigAllowed asTexts? }

/-- The settings of the check of file names in a document. -/
def FileNamingSettings.ofDocument? (d : Document) :
    Option FileNamingSettings := do
  let default : FileNamingSettings := {}
  let entries ← d.asRecord? ["required_prefix"]
  some { requiredPattern := ← field? entries "required_prefix" default.requiredPattern asText? }

/-- The settings of the check of manifests in a document. -/
def ManifestSettings.ofDocument? (d : Document) : Option ManifestSettings := do
  let default : ManifestSettings := {}
  let entries ← d.asRecord? ["required_process", "package_prefix"]
  some
    { requiredProcess := ← field? entries "required_process" default.requiredProcess asText?
      packageStart := ← field? entries "package_prefix" default.packageStart asText? }

/-- The settings in a document, if each part it gives has the right shape. -/
def Settings.ofDocument? (d : Document) : Option Settings := do
  let entries ← d.asRecord?
    ["targets", "exclude", "rules", "room", "restricted_apis", "file_naming", "manifest"]
  some
    { targets := (← field? entries "targets" [] asTexts?).map Path.mk
      exclude := ← field? entries "exclude" [] asTexts?
      rules := ← field? entries "rules" {} (RuleSettings.ofDocument?)
      room := ← field? entries "room" {} (RoomSettings.ofDocument?)
      restrictedApis :=
        ← field? entries "restricted_apis" {} (RestrictedApiSettings.ofDocument?)
      fileNaming := ← field? entries "file_naming" {} (FileNamingSettings.ofDocument?)
      manifest := ← field? entries "manifest" {} (ManifestSettings.ofDocument?) }

end AdLint
