import AdLint.Report.Summary

/-!
# Findings by file

The files stand in the order of their paths, and the findings of a file in the order of their
positions.
-/

namespace AdLint.Terminal

/-- What the circles mean. -/
def legend : List Line :=
  let entry (c : Confidence) : Line := ["  ", Palette.confidence c, " ", Styled.dimmed c.label]
  [ [Styled.dimmed "Confidence Legend:"],
    entry .high ++ entry .medium ++ entry .low,
    [] ]

/-- The two lines of a finding. -/
def item (o : ReportOptions) (f : Finding) : List Line :=
  let start : Line :=
    if o.showConfidence then ["  ", Palette.confidence f.confidence, " "] else ["  "]
  [ start ++
      [Palette.position f.location.line f.location.column, " ", Palette.severity f.severity, " [",
        Palette.rule f.rule, "] ", f.message],
    ["    ", Styled.dimmed "→", " ", Styled.dimmed f.rule.name, " '",
      Palette.subject f.subject, "'"] ]

/-- Whether one finding stands before or beside another in a file. -/
def isBefore (a b : Finding) : Bool :=
  a.location.line < b.location.line ||
    (a.location.line == b.location.line && a.location.column ≤ b.location.column)

/-- The lines of a file. -/
def file (o : ReportOptions) (findings : List Finding) (path : Path) : List Line :=
  let here := findings.filter fun f => f.location.file.same path
  [[Palette.path (shownPath o.base path)]] ++ (here.mergeSort isBefore).flatMap (item o) ++ [[]]

/-- The report, with the summary at its end. -/
def lines (o : ReportOptions) (findings : List Finding) : List Line :=
  if findings.isEmpty then [[Palette.success "No AdServices lint issues found!"]]
  else
    let files := distinctBy Path.same (findings.map fun f => f.location.file)
    let title : Line := ["Found ", Palette.count findings.length, " issues:"]
    [[], title, []] ++
      (if o.showConfidence then legend else []) ++
      (files.mergeSort fun a b => (a.compare b).isLE).flatMap (file o findings) ++
      Summary.lines o false findings

end AdLint.Terminal
