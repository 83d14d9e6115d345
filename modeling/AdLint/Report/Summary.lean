import AdLint.Report.Options
import AdLint.Report.Palette

/-!
# The summary of findings

Counts by severity, category, rule and confidence. A summary stands alone or ends another report.
-/

namespace AdLint.Summary

/-- The width of the bars. -/
def barWidth : Nat := 20

/-- The counts at the top. -/
def basics (o : ReportOptions) (s : Statistics) : List Line :=
  let row (label : String) (n : Nat) : Line :=
    [Styled.dimmed (Text.padLeft 20 label), "  ", Styled.bold (Share.thousands n)]
  (o.files.map (row "Files analyzed:")).toList ++
  (o.declarations.map (row "Declarations:")).toList ++
    [row "Files affected:" s.fileCount, row "Issues found:" s.total]

/-- A count in a column, with its share of the findings. -/
def share (width : Nat) (s : Statistics) (n : Nat) : String :=
  Text.padLeft width (toString n) ++ " (" ++ Share.percent n s.total ++ "%)"

/-- The counts by severity; severities without findings are left out. -/
def severities (s : Statistics) : List Line :=
  let row (label : Styled) (severity : Severity) : List Line :=
    let n := s.ofSeverity severity
    if n == 0 then [] else [["  ", label, " ", share 6 s n]]
  [[Palette.heading "By Severity:"]] ++ row (Styled.colored .red "Errors") .error ++
    row (Styled.colored .yellow "Warnings") .warning ++ row (Styled.colored .blue "Info") .info

/-- The counts by category, the largest first. -/
def categories (s : Statistics) : List Line :=
  let entries := largestFirst Prod.snd s.byCategory
  let width := (entries.map fun e => e.1.title.length).foldl max 0
  let row (e : Category × Nat) : Line :=
    ["  ", Text.padRight width e.1.title, " │", Palette.bar e.2 s.total barWidth e.1, "│ ",
      share 4 s e.2]
  [Palette.heading "By Category:"] :: entries.map row

/-- The rules with the most findings. -/
def topRules (o : ReportOptions) (s : Statistics) : List Line :=
  let entries := largestFirst Prod.snd s.byRule
  let row (i : Nat) (e : Rule × Nat) : Line :=
    ["  ", Text.padLeft 2 (toString (i + 1)), ". ", Palette.rule e.1, "  ",
      Styled.bold (Text.padLeft 5 (toString e.2)), "  ", Styled.dimmed e.1.name]
  let hidden := entries.length - o.top
  let more : Line := ["      ... and ", Styled.dimmed (toString hidden), " more rules"]
  [Palette.heading "Top Rules:"] :: (entries.take o.top).mapIdx row ++
    (if hidden == 0 then [] else [more])

/-- The counts by confidence; confidences without findings are left out. -/
def confidences (s : Statistics) : List Line :=
  let row (c : Confidence) : List Line :=
    let n := s.ofConfidence c
    if n == 0 then []
    else [["  ", Palette.confidence c, " ", Text.padRight 6 c.label, " ", share 6 s n]]
  [Palette.heading "By Confidence:"] :: [Confidence.high, .medium, .low].flatMap row

/-- What to do next. -/
def footer (alone : Bool) : List Line :=
  [ [Palette.thinDivider 50],
    [Styled.dimmed
      (if alone then "Run without --summary for full details"
       else "Tip: Use --generate-baseline to accept the current findings")],
    [Styled.dimmed "Use --min-confidence high to filter inferred findings"] ]

/-- The summary; `alone` says that no other report stands before it. -/
def lines (o : ReportOptions) (alone : Bool) (findings : List Finding) : List Line :=
  let s : Statistics := ⟨findings⟩
  let top : List Line :=
    [[], [Palette.headline "AdServices Lint Summary"], [Palette.divider 50], []]
  if findings.isEmpty then top ++ [[Palette.success "No issues found!"]]
  else
    top ++ basics o s ++ [[]] ++ severities s ++ [[]] ++ categories s ++ [[]] ++ topRules o s ++
      [[]] ++ confidences s ++ [[]] ++ footer alone

end AdLint.Summary
