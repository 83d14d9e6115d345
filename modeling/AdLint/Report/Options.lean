import AdLint.Report.Statistics

/-!
# Options of reports
-/

namespace AdLint

/-- The formats of reports. -/
inductive ReportFormat where
  /-- Findings by file. -/
  | terminal
  /-- One line for each finding. -/
  | compact
  | grouped (grouping : Grouping)
  /-- Counts only. -/
  | summary
  | json
  /-- The static analysis results interchange format. -/
  | sarif
  deriving DecidableEq, Repr, Inhabited

/-- Options of a report. -/
structure ReportOptions where
  /-- The file that a report in a data format is written to. -/
  output : Option Path := none
  /-- The directory that paths are shown relative to. -/
  base : Option Path := none
  /-- Whether groups are shown in full. -/
  expand : Bool := false
  showConfidence : Bool := true
  /-- The findings shown of a group that is not shown in full. -/
  maxPerGroup : Nat := 5
  /-- The rules shown in a summary. -/
  top : Nat := 10
  /-- The number of files that were analyzed. -/
  files : Option Nat := none
  /-- The number of declarations that were analyzed. -/
  declarations : Option Nat := none
  deriving Repr, Inhabited

/-- The text of a path, relative to the base if it lies under it. -/
def shownPath (base : Option Path) (path : Path) : String :=
  match base.bind fun base => path.relativeTo? base with
  | some rest => if rest.text == "" then path.text else rest.text
  | none => path.text

end AdLint
