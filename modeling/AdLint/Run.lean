import AdLint.Analysis
import AdLint.Baseline
import AdLint.CommandLine.Basic
import AdLint.Discovery
import AdLint.Report
import AdLint.Settings.File
import AdLint.Sources

/-!
# Runs

A run finds the files of a project, reads them, analyzes the project and reports what it finds. On
the way it may save a baseline of its findings and leave out those that an older baseline covers. A
run that ends with an error keeps what it has printed and written before.

## Main definitions

* `Run`: steps of a run, which may end it with an error
* `findings`: the findings of a project
* `run`: a whole run; its result tells whether a grave finding was reported
-/

namespace AdLint

/-- Why a run ends before its report. -/
inductive RunError where
  | settings (error : SettingsError)
  | word (error : UnknownWord)
  | discovery (error : DiscoveryError)
  | report (error : FileError)
  deriving Repr

/-- What is said about an error. -/
def RunError.message : RunError → String
  | settings e => e.message
  | word e => e.message
  | discovery e => e.message
  | report e => e.message

/-- Steps of a run, which may end it with an error. -/
abbrev Run := ExceptT RunError (StateM Output)

namespace Run

/-- A step that may fail. -/
def attempt {ε α : Type} (error : ε → RunError) : Except ε α → Run α
  | .ok a => pure a
  | .error e => throw (error e)

end Run

/-! ## Settings of a run -/

/-- The settings with what the command line asks for. -/
def CommandLine.applyTo (c : CommandLine) (s : Settings) : Settings :=
  { s with
    targets := if c.targets.isEmpty then s.targets else c.targets
    exclude := s.exclude ++ c.exclude
    rules :=
      { s.rules with
        enabled := if c.rules.isEmpty then s.rules.enabled else c.rules
        disabled := s.rules.disabled ++ c.disable } }

/-- The settings of a run: those of the file that is named, or else those of the project, with what
the command line asks for. -/
def CommandLine.settings (c : CommandLine) (t : FileTree) : Except SettingsError Settings := do
  let s ←
    match c.config with
    | some path => Settings.load t path
    | none => Settings.find t c.project
  (c.applyTo s).checked

/-- The format of the report. -/
def CommandLine.reportFormat (c : CommandLine) : Except UnknownWord ReportFormat :=
  if c.summary then .ok .summary
  else
    match c.groupBy with
    | some word => do .ok (.grouped (← Grouping.parse word))
    | none =>
      .ok <|
        match c.format with
        | .terminal => .terminal
        | .compact => .compact
        | .json => .json
        | .sarif => .sarif

/-! ## Steps -/

/-- The findings of a project that are sure enough. -/
def findings (s : Settings) (least : Confidence) (p : Project) : List Finding :=
  (analyze s p).filter fun f => least.rank ≤ f.confidence.rank

/-- Saves a baseline of findings, if the command line asks for it. A baseline that cannot be saved
does not end the run. -/
def saveBaseline (c : CommandLine) (colors : Bool) (found : List Finding) (o : Output) : Output :=
  match c.generateBaseline with
  | none => o
  | some path =>
    match (Baseline.ofFindings c.project found).save o.files path with
    | .ok files =>
      let notice := s!"📋 Baseline generated: {path.text} ({found.length} issues)"
      { o with files }.notify colors [Styled.colored .green notice]
    | .error e =>
      o.notify colors
        [Styled.colored .red "Error", ": Failed to generate baseline: " ++ e.fullMessage]

/-- The findings that the baseline of the command line does not cover. A baseline that cannot be
loaded covers none. -/
def applyBaseline (c : CommandLine) (colors : Bool) (found : List Finding) (o : Output) :
    List Finding × Output :=
  match c.baseline with
  | none => (found, o)
  | some path =>
    match Baseline.load o.files path with
    | .ok b =>
      let notice := "📋 Baseline: " ++ (b.comparison c.project found).shown
      (b.newOf c.project found,
        if c.quiet then o else o.notify colors [Styled.colored .cyan notice])
    | .error e =>
      (found,
        o.notify colors
          [Styled.colored .yellow "Warning", ": Failed to load baseline: " ++ e.fullMessage])

/-- The options of the report. -/
def CommandLine.reportOptions (c : CommandLine) (files declarations : Nat) : ReportOptions :=
  { output := c.output
    base := some c.project
    expand := c.expand
    top := c.top
    files := some files
    declarations := some declarations }

/-- The project that files make up, read one after the other or by tasks side by side. -/
def readProject (c : CommandLine) (t : FileTree) (files : List Path) : Project :=
  if c.parallel then Project.ofTasks t files (List.range files.length) else Project.ofFiles t files

/-- A run with settings. -/
def runWith (c : CommandLine) (colors : Bool) (s : Settings) : Run Bool := do
  let least ← Run.attempt .word (Confidence.parse c.minConfidence)
  let files ← Run.attempt .discovery (discover (← get).files s c.project)
  if files.isEmpty then
    unless c.quiet do
      modify fun o =>
        o.print colors [[Styled.colored .yellow "No Kotlin, Java or manifest files found."]]
    return false
  if c.parallel && !c.quiet then
    let notice := s!"⚡ Parallel mode: parsing {files.length} files..."
    modify fun o => o.notify colors [Styled.colored .cyan notice]
  let project := readProject c (← get).files files
  let found := findings s least project
  modify (saveBaseline c colors found)
  let reported ← modifyGet (applyBaseline c colors found)
  let format ← Run.attempt .word c.reportFormat
  let r := report (c.reportOptions files.length project.declarations.length) format reported
  set (← Run.attempt .report (r.deliver (← get) colors))
  return reported.any fun f => f.severity == .error

/-- The list of all rules. -/
def ruleList : List Line :=
  let padded (text : String) (width : Nat) : String :=
    text ++ Text.replicate (width - text.length) ' '
  let head : Line :=
    [ Styled.bold (padded "Code" 6), "  ", Styled.bold (padded "Name" 32), "  ",
      Styled.bold (padded "Category" 24), "  ", Styled.bold "Severity" ]
  head :: Rule.all.map fun r =>
    [ Styled.colored .magenta (padded r.code 6), "  ", (padded r.name 32 : String), "  ",
      (padded r.category.title 24 : String), "  ", (r.severity.label : String) ]

/-- A whole run. Its result tells whether a grave finding was reported. -/
def run (c : CommandLine) (colors : Bool) : Run Bool := do
  if c.completions.isSome then return false
  else if c.listRules then
    modify fun o => o.print colors ruleList
    return false
  else
    let s ← Run.attempt .settings (c.settings (← get).files)
    runWith c colors s

end AdLint
