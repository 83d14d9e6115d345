import AdLint.Report.Summary

/-!
# Findings by rule or category
-/

namespace AdLint.Grouped

/-- The lines of a group. -/
def group (o : ReportOptions) (indent : String) (g : RuleGroup) : List Line :=
  let limit := if o.expand then g.count else o.maxPerGroup
  let item (f : Finding) : Line :=
    [indent, "    ", Styled.dimmed (shownPath o.base f.location.file), ":",
      Styled.dimmed (toString f.location.line), " ", Palette.subject f.subject]
  let hidden := g.count - limit
  let more : Line :=
    [indent, "    ", Styled.dimmed s!"... and {hidden} more (use --expand to show all)"]
  let title : Line :=
    [indent, Palette.severity g.severity, " ", Palette.rule g.rule, " ",
      Styled.bold g.rule.name, " (", Palette.count g.count, ")"]
  [title] ++ (g.findings.take limit).map item ++ (if hidden == 0 then [] else [more])

/-- The groups one after the other. -/
def byRule (o : ReportOptions) (groups : List RuleGroup) : List Line :=
  [[], [Palette.headline "Issues Grouped by Rule"], [Palette.divider 50], []] ++
    groups.flatMap fun g => group o "" g ++ [[]]

/-- The groups of each category, the categories in the order of their titles. -/
def byCategory (o : ReportOptions) (groups : List RuleGroup) : List Line :=
  let titled (c : Category) : List Line :=
    let inside := groups.filter fun g => g.rule.category == c
    if inside.isEmpty then []
    else
      [[],
        [Palette.category c, " (", Palette.count (inside.flatMap RuleGroup.findings).length, ")"],
        [Palette.thinDivider 40]] ++ inside.flatMap (group o "  ")
  [[], [Palette.headline "Issues Grouped by Category"], [Palette.divider 50]] ++
    Category.all.flatMap titled

/-- The report, with the summary at its end. -/
def lines (o : ReportOptions) (grouping : Grouping) (findings : List Finding) : List Line :=
  if findings.isEmpty then [[Palette.success "No issues found!"]]
  else
    let groups := ruleGroups findings
    (match grouping with
      | .byRule => byRule o groups
      | .byCategory => byCategory o groups) ++
      [[], [Palette.divider 40, " ", Palette.count findings.length, " total issues"]] ++
      Summary.lines o false findings

end AdLint.Grouped
