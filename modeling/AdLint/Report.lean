import AdLint.Output
import AdLint.Report.Compact
import AdLint.Report.Data
import AdLint.Report.Grouped
import AdLint.Report.Terminal

/-!
# Reports

A report is shown, or, in a data format with an output file, written to that file.

## Main definitions

* `Report`: what is shown or written
* `report`: the report of findings in a format
* `Report.deliver`: the output with a report
-/

namespace AdLint

/-- A report. -/
inductive Report where
  /-- Lines that are shown. -/
  | shown (lines : List Line)
  /-- A text that is written to a file, and the name of its format. -/
  | written (path : Path) (text : String) (format : String)
  deriving Inhabited

/-- The report of a value in a data format. -/
def dataReport (o : ReportOptions) (format : String) (value : Json) : Report :=
  match o.output with
  | some path => .written path value.pretty format
  | none => .shown [[value.pretty]]

/-- The report of findings in a format. -/
def report (o : ReportOptions) (format : ReportFormat) (findings : List Finding) : Report :=
  match format with
  | .terminal => .shown (Terminal.lines o findings)
  | .compact => .shown (Compact.lines o findings)
  | .grouped grouping => .shown (Grouped.lines o grouping findings)
  | .summary => .shown (Summary.lines o true findings)
  | .json => dataReport o "JSON" (DataReport.plain findings)
  | .sarif => dataReport o "SARIF" (DataReport.interchange findings)

/-- What is said when a report was written to a file. -/
def writtenNotice (format : String) (path : Path) : String :=
  format ++ " report written to: " ++ path.text

/-- The output with a report. -/
def Report.deliver (o : Output) (colors : Bool) : Report → Except FileError Output
  | shown lines => .ok (o.print colors lines)
  | written path text format => do
    .ok ({ o with files := ← o.files.write path text }.notify colors [writtenNotice format path])

end AdLint
