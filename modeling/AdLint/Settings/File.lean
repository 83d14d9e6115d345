import AdLint.FileTree
import AdLint.Settings.Reader
import AdLint.Toml.Reader
import AdLint.Yaml.Reader

/-!
# Settings in files

Settings are read from a file in YAML or TOML; the extension of its name tells which. Without a file
that is named, the first of the default files of a project counts, and without such a file the
defaults.

## Main definitions

* `Settings.load`: the settings in a file
* `Settings.find`: the settings of a project
-/

namespace AdLint

/-- Why there are no settings to go by. -/
inductive SettingsError where
  | unreadable (path : Path)
  | invalidYaml (path : Path)
  | invalidToml (path : Path)
  | unknownFormat (path : Path)
  | mistake (mistake : SettingsMistake)
  deriving DecidableEq, Repr, Inhabited

/-- What is said about a mistake. -/
def SettingsMistake.message : SettingsMistake → String
  | unknownRule rule listName => s!"unknown rule '{rule}' in {listName}"
  | badPattern pattern => s!"invalid file naming pattern '{pattern}'"

/-- What is said about an error. -/
def SettingsError.message : SettingsError → String
  | unreadable path => "failed to read config file " ++ path.text
  | invalidYaml path => "invalid YAML in " ++ path.text
  | invalidToml path => "invalid TOML in " ++ path.text
  | unknownFormat path => "unsupported config format: " ++ path.text
  | mistake m => m.message

namespace Settings

/-- The settings, if there is no mistake in them. -/
def checked (s : Settings) : Except SettingsError Settings :=
  match s.mistake? with
  | some m => .error (.mistake m)
  | none => .ok s

/-- The settings that a text writes in the format of a path, mistakes included. -/
def ofText (path : Path) (text : String) : Except SettingsError Settings :=
  let read (document : Option Document) (error : SettingsError) : Except SettingsError Settings :=
    match document.bind ofDocument? with
    | some s => .ok s
    | none => .error error
  match path.extension? with
  | some "yml" | some "yaml" => read (Yaml.parse? text) (.invalidYaml path)
  | some "toml" => read (Toml.parse? text) (.invalidToml path)
  | _ => .error (.unknownFormat path)

/-- The settings in a file. -/
def load (t : FileTree) (path : Path) : Except SettingsError Settings :=
  match t.read path with
  | .error _ => .error (.unreadable path)
  | .ok text => (ofText path text).bind checked

/-- The files of a project that settings are looked for in. -/
def defaultFiles : List String :=
  [".adservices-lint.yml", ".adservices-lint.yaml", "adservices-lint.toml"]

/-- The settings of a project. -/
def find (t : FileTree) (project : Path) : Except SettingsError Settings :=
  match (defaultFiles.map fun name => project.join ⟨name⟩).find? t.isFile with
  | some path => load t path
  | none => .ok {}

end Settings

end AdLint
