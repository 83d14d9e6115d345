import AdLint.Text.Blank

/-!
# Rules

The rules of the linter, with the code and the name by which a user selects or suppresses one, the
category it is shown under, its severity and the message it falls back to.

## Main definitions

* `Rule`, `Rule.all`: the rules, in the order in which they are listed
* `Rule.parse?`: a rule from its code or name
* `Severity`, `Confidence`: how grave a finding is, and how sure
-/

namespace AdLint

/-- How grave a finding is. -/
inductive Severity where
  | info
  | warning
  | error
  deriving DecidableEq, Repr, Inhabited

namespace Severity

/-- The word for a severity. -/
def label : Severity → String
  | info => "info"
  | warning => "warning"
  | error => "error"

/-- The place of a severity in the order from harmless to grave. -/
def rank : Severity → Nat
  | info => 0
  | warning => 1
  | error => 2

/-- The severity with exactly this word. -/
def ofLabel? (s : String) : Option Severity :=
  [info, warning, error].find? fun severity => severity.label == s

/-- The graver of two severities. -/
def max (a b : Severity) : Severity := if a.rank ≤ b.rank then b else a

end Severity

/-- How sure a check is that a finding is real: a symbol matched through an explicit import or a
qualified name is certain, one matched through a wildcard import or the file's own package is
not. -/
inductive Confidence where
  | low
  | medium
  | high
  deriving DecidableEq, Repr, Inhabited

namespace Confidence

/-- The word for a confidence. -/
def label : Confidence → String
  | low => "low"
  | medium => "medium"
  | high => "high"

/-- The place of a confidence in the order from unsure to sure. -/
def rank : Confidence → Nat
  | low => 0
  | medium => 1
  | high => 2

/-- The confidence with this word, in any case of its letters. -/
def parse? (s : String) : Option Confidence :=
  [low, medium, high].find? fun confidence => confidence.label == Text.lowerAscii s

end Confidence

/-- The group of rules that a rule is shown under. -/
inductive Category where
  | roomDatabase
  | restrictedApi
  | backwardCompatibility
  deriving DecidableEq, Repr, Inhabited

namespace Category

/-- The heading of a category. -/
def title : Category → String
  | roomDatabase => "Room Database"
  | restrictedApi => "Restricted API"
  | backwardCompatibility => "Backward Compatibility"

/-- The categories, in the order of their headings. -/
def all : List Category := [backwardCompatibility, restrictedApi, roomDatabase]

end Category

/-- The rules. -/
inductive Rule where
  /-- A Room database without its annotation. -/
  | databaseUnannotated
  /-- A Room database that does not export its schema. -/
  | schemaNotExported
  /-- A Room database without a version constant. -/
  | versionFieldMissing
  /-- A Room database whose two versions differ. -/
  | versionsDisagree
  /-- A Room database above version 1 that declares no migrations. -/
  | migrationsMissing
  /-- A Room database whose migrations do not lead to its version. -/
  | migrationPathBroken
  /-- A Room database that the registration class does not list. -/
  | databaseUnregistered
  /-- Room databases without a registration class. -/
  | registrationMissing
  /-- A direct call on the system properties. -/
  | systemPropertiesCall
  /-- A direct call on the device configuration. -/
  | deviceConfigCall
  /-- A field of a job service that runs code when the service is made. -/
  | eagerJobServiceField
  /-- A file that is created without the required start of its name. -/
  | unprefixedFile
  /-- A manifest component outside the required process. -/
  | foreignProcess
  deriving DecidableEq, Repr, Inhabited

namespace Rule

/-- The rules, in the order in which they are listed. -/
def all : List Rule :=
  [databaseUnannotated, schemaNotExported, versionFieldMissing, versionsDisagree,
    migrationsMissing, migrationPathBroken, databaseUnregistered, registrationMissing,
    systemPropertiesCall, deviceConfigCall, eagerJobServiceField, unprefixedFile, foreignProcess]

/-- The place of a rule in the list. -/
def rank (r : Rule) : Nat := all.idxOf r

/-- The short code of a rule. -/
def code : Rule → String
  | databaseUnannotated => "RD001"
  | schemaNotExported => "RD002"
  | versionFieldMissing => "RD003"
  | versionsDisagree => "RD004"
  | migrationsMissing => "RD005"
  | migrationPathBroken => "RD006"
  | databaseUnregistered => "RD007"
  | registrationMissing => "RD008"
  | systemPropertiesCall => "AS001"
  | deviceConfigCall => "AS002"
  | eagerJobServiceField => "BC001"
  | unprefixedFile => "BC002"
  | foreignProcess => "BC003"

/-- The name of a rule, as suppressions and settings write it. -/
def name : Rule → String
  | databaseUnannotated => "RoomDatabaseMissingAnnotation"
  | schemaNotExported => "RoomExportSchemaDisabled"
  | versionFieldMissing => "RoomMissingVersionField"
  | versionsDisagree => "RoomVersionMismatch"
  | migrationsMissing => "RoomMissingAutoMigrations"
  | migrationPathBroken => "RoomIncompleteMigrationPath"
  | databaseUnregistered => "RoomDatabaseNotRegistered"
  | registrationMissing => "RoomRegistrationMissing"
  | systemPropertiesCall => "AvoidSystemPropertiesUsage"
  | deviceConfigCall => "AvoidDeviceConfigUsage"
  | eagerJobServiceField => "JobServiceFieldInitializer"
  | unprefixedFile => "NewAdServicesFile"
  | foreignProcess => "AdServicesProcess"

/-- The category a rule is shown under. -/
def category : Rule → Category
  | systemPropertiesCall | deviceConfigCall => .restrictedApi
  | eagerJobServiceField | unprefixedFile | foreignProcess => .backwardCompatibility
  | _ => .roomDatabase

/-- The severity of a rule unless the settings change it. -/
def severity : Rule → Severity
  | schemaNotExported | registrationMissing => .warning
  | _ => .error

/-- The message about `subject` that a rule falls back to. -/
def message (rule : Rule) (subject : String) : String :=
  match rule with
  | databaseUnannotated => s!"Room database '{subject}' is missing the @Database annotation"
  | schemaNotExported =>
    s!"Room database '{subject}' sets exportSchema = false; " ++
      "exported schemas are required for auto migration"
  | versionFieldMissing => s!"Room database '{subject}' must declare a DATABASE_VERSION constant"
  | versionsDisagree => s!"@Database version of '{subject}' must reference DATABASE_VERSION"
  | migrationsMissing =>
    s!"Room database '{subject}' is above version 1 but declares no autoMigrations"
  | migrationPathBroken => s!"autoMigrations of '{subject}' do not cover every version step"
  | databaseUnregistered =>
    s!"Room database '{subject}' is not registered in the database registration class"
  | registrationMissing => s!"Database registration class '{subject}' was not found"
  | systemPropertiesCall =>
    s!"'{subject}' uses android.os.SystemProperties directly; read flags through the flag wrappers"
  | deviceConfigCall =>
    s!"'{subject}' uses android.provider.DeviceConfig directly; read flags through PhFlags"
  | eagerJobServiceField =>
    s!"Field '{subject}' of a JobService is initialized at construction; defer it to onStartJob"
  | unprefixedFile => s!"Persisted file '{subject}' must be named with the adservices prefix"
  | foreignProcess => s!"Component '{subject}' must run in the AdServices process"

/-- Whether a text is the code or the name of a rule, in any case of its letters. -/
def answersTo (rule : Rule) (s : String) : Bool :=
  Text.sameIgnoringAsciiCase rule.code s || Text.sameIgnoringAsciiCase rule.name s

/-- The rule with this code or name; blanks around it are ignored. -/
def parse? (s : String) : Option Rule :=
  let trimmed := Text.trim s
  all.find? fun rule => rule.answersTo trimmed

end Rule

/-- How a report gathers its findings. -/
inductive Grouping where
  | byRule
  | byCategory
  deriving DecidableEq, Repr, Inhabited

namespace Grouping

/-- The grouping with this word. The words hold no letter that is the lower case of one outside
ASCII. -/
def parse? (s : String) : Option Grouping :=
  match Text.lowerAscii s with
  | "rule" | "issue" => some byRule
  | "category" | "cat" => some byCategory
  | _ => none

end Grouping

/-- A word that names nothing the linter knows. -/
inductive UnknownWord where
  | rule (word : String)
  | confidence (word : String)
  | grouping (word : String)
  deriving DecidableEq, Repr

/-- The text of the complaint about an unknown word. -/
def UnknownWord.message : UnknownWord → String
  | rule word => s!"unknown rule '{word}'"
  | confidence word => s!"unknown confidence level '{word}'"
  | grouping word => s!"Unknown grouping: {word}. Use: rule, category"

/-- The rule with this code or name, or a complaint about the word without the blanks around it. -/
def Rule.parse (s : String) : Except UnknownWord Rule :=
  match Rule.parse? s with
  | some rule => .ok rule
  | none => .error (.rule (Text.trim s))

/-- The confidence with this word, or a complaint about it in lower case. -/
def Confidence.parse (s : String) : Except UnknownWord Confidence :=
  match Confidence.parse? s with
  | some confidence => .ok confidence
  | none => .error (.confidence (Text.lowerAscii s))

/-- The grouping with this word, or a complaint about it as written. -/
def Grouping.parse (s : String) : Except UnknownWord Grouping :=
  match Grouping.parse? s with
  | some grouping => .ok grouping
  | none => .error (.grouping s)

end AdLint
