import AdLint.Report.Options

/-!
# Command lines

What a user asks for on the command line.
-/

namespace AdLint

/-- The formats of output that can be asked for by name. -/
inductive OutputFormat where
  | terminal
  | compact
  | json
  | sarif
  deriving DecidableEq, Repr, Inhabited

/-- The format that a word names. -/
def OutputFormat.ofLabel? (word : String) : Option OutputFormat :=
  match word with
  | "terminal" => some terminal
  | "compact" => some compact
  | "json" => some json
  | "sarif" => some sarif
  | _ => none

/-- A command line. -/
structure CommandLine where
  /-- The project. -/
  project : Path := ⟨"."⟩
  /-- The file with the settings. -/
  config : Option Path := none
  targets : List Path := []
  exclude : List String := []
  format : OutputFormat := .terminal
  output : Option Path := none
  /-- If there are any here, only these rules run. -/
  rules : List String := []
  disable : List String := []
  /-- The lowest confidence that is reported, as written. -/
  minConfidence : String := "low"
  /-- The baseline that findings are compared with. -/
  baseline : Option Path := none
  /-- The file that a baseline is saved in. -/
  generateBaseline : Option Path := none
  parallel : Bool := false
  verbose : Bool := false
  quiet : Bool := false
  /-- The shell to write completions for. -/
  completions : Option String := none
  listRules : Bool := false
  summary : Bool := false
  /-- The grouping of the report, as written. -/
  groupBy : Option String := none
  expand : Bool := false
  /-- The rules shown in a summary. -/
  top : Nat := 10
  deriving Repr, Inhabited

/-- Why a command line is not carried out. -/
inductive UsageError where
  /-- An option that does not exist, or a word too many. -/
  | unknownArgument
  /-- A value that is missing, or not one of those that can be given. -/
  | invalidValue
  /-- A value that cannot be read. -/
  | valueValidation
  /-- An option that is given twice. -/
  | argumentConflict
  /-- A value for an option that takes none. -/
  | tooManyValues
  /-- The user asks for help. -/
  | displayHelp
  /-- The user asks for the version. -/
  | displayVersion
  deriving DecidableEq, Repr, Inhabited

end AdLint
