import AdLint.Path
import AdLint.Rule
import AdLint.Pattern.Reader

/-!
# Settings

What a user can choose: which directories are read, which rules run and how grave they are, and the
names that the checks look for. Every choice has a default.

## Main definitions

* `Settings`: all choices
* `Settings.enables`: whether a rule runs
* `Settings.severityOf?`: the severity that the settings give a rule
* `Settings.mistake?`: the first mistake in the settings, if there is one
-/

namespace AdLint

/-- Which rules run, and how grave they are. -/
structure RuleSettings where
  /-- Rules that do not run, by code or name. -/
  disabled : List String := []
  /-- If there are any here, only these rules run. -/
  enabled : List String := []
  /-- Severities given to rules, by code or name. -/
  severity : List (String × Severity) := []
  deriving Repr, Inhabited

/-- The names that the Room checks look for. -/
structure RoomSettings where
  baseClass : String := "RoomDatabase"
  databaseAnnotation : String := "Database"
  migrationAnnotation : String := "AutoMigration"
  versionField : String := "DATABASE_VERSION"
  registrationClass : String := "RoomDatabaseRegistration"
  deriving Repr, Inhabited

/-- The classes that may call the restricted interfaces. -/
structure RestrictedApiSettings where
  systemPropertiesAllowed : List String := ["DebugFlags", "PhFlags"]
  deviceConfigAllowed : List String := ["PhFlags"]
  deriving Repr, Inhabited

/-- The pattern that names of created files must match. -/
structure FileNamingSettings where
  requiredPattern : String := "(?i)^adservices"
  deriving Repr, Inhabited

/-- The process that manifest components must run in. -/
structure ManifestSettings where
  requiredProcess : String := ":adservices"
  /-- Only components whose name begins with this are checked. -/
  packageStart : String := "com.android.adservices"
  deriving Repr, Inhabited

/-- All choices of a user. -/
structure Settings where
  /-- Directories to read, relative to the project. -/
  targets : List Path := []
  /-- Patterns of paths to leave out. -/
  exclude : List String := []
  rules : RuleSettings := {}
  room : RoomSettings := {}
  restrictedApis : RestrictedApiSettings := {}
  fileNaming : FileNamingSettings := {}
  manifest : ManifestSettings := {}
  deriving Repr, Inhabited

/-- A mistake in the settings. -/
inductive SettingsMistake where
  /-- A list of rules names one that does not exist. -/
  | unknownRule (rule listName : String)
  /-- The pattern for file names cannot be read. -/
  | badPattern (pattern : String)
  deriving DecidableEq, Repr, Inhabited

namespace Settings

/-- Whether some word of a list denotes the rule. -/
def lists (words : List String) (rule : Rule) : Bool :=
  words.any fun word => Rule.parse? word == some rule

/-- Whether a rule runs. -/
def enables (s : Settings) (rule : Rule) : Bool :=
  !lists s.rules.disabled rule && (s.rules.enabled.isEmpty || lists s.rules.enabled rule)

/-- The severity that the settings give a rule. -/
def severityOf? (s : Settings) (rule : Rule) : Option Severity :=
  (s.rules.severity.find? fun entry => Rule.parse? entry.1 == some rule).map Prod.snd

/-- The first word of a list that denotes no rule. -/
def unknownIn? (listName : String) (words : List String) : Option SettingsMistake :=
  (words.find? fun word => (Rule.parse? word).isNone).map fun word =>
    .unknownRule word listName

/-- The first mistake in the settings, if there is one. -/
def mistake? (s : Settings) : Option SettingsMistake :=
  (unknownIn? "rules.disabled" s.rules.disabled).or <|
  (unknownIn? "rules.enabled" s.rules.enabled).or <|
  (unknownIn? "rules.severity" (s.rules.severity.map Prod.fst)).or <|
  if (Pattern.parse? s.fileNaming.requiredPattern).isNone then
    some (.badPattern s.fileNaming.requiredPattern)
  else none

end Settings

end AdLint
