import AdLint.Check.FileNaming
import AdLint.Check.JobService
import AdLint.Check.ManifestProcess
import AdLint.Check.RestrictedApi
import AdLint.Room.Scan

/-!
# Analysis of a project

An analysis runs the checks, drops the findings of rules that do not run and those that the source
suppresses, applies the severities of the settings, and sorts what is left.

## Main definitions

* `Check`, `Check.all`: the checks, in the order in which they run
* `isSuppressed`: whether the source suppresses a finding
* `analyze`: the findings of an analysis
-/

namespace AdLint

/-- A check: the rules it can report, and its findings about a project. -/
structure Check where
  name : String
  rules : List Rule
  findings : Project → List Finding

namespace Check

/-- The check of the Room databases. -/
def room (s : RoomSettings) : Check :=
  { name := "room-database-migration"
    rules := [.databaseUnannotated, .schemaNotExported, .versionFieldMissing, .versionsDisagree,
      .migrationsMissing, .migrationPathBroken, .databaseUnregistered, .registrationMissing]
    findings := fun p => (RoomScan.start p s).run }

/-- The check of calls on the system properties. -/
def systemProperties (s : RestrictedApiSettings) : Check :=
  { name := "system-properties-usage"
    rules := [.systemPropertiesCall]
    findings := (RestrictedApi.systemProperties s).findings }

/-- The check of calls on the device configuration. -/
def deviceConfig (s : RestrictedApiSettings) : Check :=
  { name := "device-config-usage"
    rules := [.deviceConfigCall]
    findings := (RestrictedApi.deviceConfig s).findings }

/-- The check of the fields of job services. -/
def jobService : Check :=
  { name := "job-service-initializer"
    rules := [.eagerJobServiceField]
    findings := JobService.findings }

/-- The check of the names of created files. -/
def fileNaming (s : FileNamingSettings) : Check :=
  { name := "new-file-naming"
    rules := [.unprefixedFile]
    findings := FileNaming.findings s }

/-- The check of the processes of manifest components. -/
def manifestProcess (s : ManifestSettings) : Check :=
  { name := "manifest-process"
    rules := [.foreignProcess]
    findings := ManifestProcess.findings s }

/-- The checks, in the order in which they run. -/
def all (s : Settings) : List Check :=
  [room s.room, systemProperties s.restrictedApis, deviceConfig s.restrictedApis, jobService,
    fileNaming s.fileNaming, manifestProcess s.manifest]

end Check

/-- Annotations that suppress findings. -/
def suppressingAnnotations : List String := ["SuppressLint", "Suppress", "SuppressWarnings"]

/-- Whether a text in a suppressing annotation names the rule: `all` and the code in any case of
their letters, the name exactly. -/
def suppresses (rule : Rule) (word : String) : Bool :=
  Text.sameIgnoringAsciiCase word "all" || Text.sameIgnoringAsciiCase word rule.code ||
    word == rule.name

/-- Whether a declaration around a finding suppresses it. -/
def isSuppressed (p : Project) (f : Finding) : Bool :=
  (p.enclosing f.location).any fun d =>
    (d.annotations.filter fun a => suppressingAnnotations.any a.named).any fun a =>
      a.texts.any (suppresses f.rule)

/-- The finding with the severity that the settings give its rule. -/
def Finding.withSettings (s : Settings) (f : Finding) : Finding :=
  { f with severity := (s.severityOf? f.rule).getD f.severity }

/-- The findings of an analysis. A check of which no rule runs is skipped. -/
def analyze (s : Settings) (p : Project) : List Finding :=
  let active := (Check.all s).filter fun check => check.rules.any s.enables
  let found := active.flatMap fun check => check.findings p
  let kept := found.filter fun f => s.enables f.rule && !isSuppressed p f
  (kept.map (Finding.withSettings s)).mergeSort fun a b => (a.compare b).isLE

end AdLint
