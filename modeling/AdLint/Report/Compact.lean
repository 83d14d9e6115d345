import AdLint.Report.Options
import AdLint.Report.Palette

/-!
# One line for each finding
-/

namespace AdLint.Compact

/-- The longest message that is shown in full. -/
def maxMessage : Nat := 100

/-- A message cut to the width of a line. -/
def shorten (message : String) : String :=
  let cs := message.toList
  if cs.length ≤ maxMessage then message else String.ofList (cs.take (maxMessage - 3)) ++ "..."

/-- The line of a finding. -/
def line (o : ReportOptions) (f : Finding) : Line :=
  let circle : Line := if o.showConfidence then [Palette.confidence f.confidence, " "] else []
  let place : String :=
    shownPath o.base f.location.file ++ ":" ++ toString f.location.line ++ ":" ++
      toString f.location.column
  circle ++
    [Styled.dimmed place, "  ", Palette.severity f.severity, "  ", Palette.rule f.rule, "  ",
      shorten f.message]

/-- Lines with a separator between them. -/
def joined (separator : Styled) : List Line → Line
  | [] => []
  | [part] => part
  | part :: parts => part ++ [separator] ++ joined separator parts

/-- The counts at the end. -/
def totals (s : Statistics) : List Line :=
  let part (severity : Severity) (word : Styled) : List Line :=
    let n := s.ofSeverity severity
    if n == 0 then [] else [[toString n, " ", word]]
  let parts :=
    part .error (Styled.colored .red "errors") ++
    part .warning (Styled.colored .yellow "warnings") ++
      part .info (Styled.colored .blue "info")
  let head : Line :=
    ["  ", Palette.count s.total, " ", Styled.bold "issues", " in ",
      toString s.fileCount, " files ("]
  let tail : Line := [")"]
  [[Palette.divider 50], head ++ joined ", " parts ++ tail]

/-- The report. -/
def lines (o : ReportOptions) (findings : List Finding) : List Line :=
  if findings.isEmpty then [[Palette.success "No issues found!"]]
  else findings.map (line o) ++ totals ⟨findings⟩

end AdLint.Compact
