import AdLint.Proofs.FindingCounts
import AdLint.Report.Grouped
import AdLint.Report.Terminal
import Mathlib.Data.List.Perm.Basic

/-!
# What reports print

A report that groups its findings prints them group by group. Here the lines of the reports are
written as what is printed for each group, so that it can be read off what becomes of each finding.
The report by rule and the report by category go through the same groups, in another order, and
print of each group the findings that the options allow and the number of the others. The report by
file goes through the files in the order of their paths and prints all findings of a file.

## Main definitions

* `Grouped.groupLines`: what is printed for a group
* `Grouped.sections`, `Terminal.sections`: the parts of the report by category and of the report by
  file
* `Terminal.SplitsByFile`: parts that split findings by their files

## Main results

* `Grouped.lines_byRule_eq`, `Grouped.lines_byCategory_eq`, `Terminal.lines_eq`: the lines of the
  reports
* `Grouped.perm_sections`, `Grouped.sum_total_sections`: categories split the groups
* `Terminal.splitsByFile_sections`: files split the findings
* `reports_print_all_findings`: no report loses or repeats a finding
-/

namespace AdLint

open Std

/-! ## Reports by rule and by category -/

namespace Grouped

/-- The line above the findings of a group. -/
def titleLine (indent : String) (g : RuleGroup) : Line :=
  [indent, Palette.severity g.severity, " ", Palette.rule g.rule, " ",
    Styled.bold g.rule.name, " (", Palette.count g.count, ")"]

/-- The line of a finding. -/
def itemLine (o : ReportOptions) (indent : String) (f : Finding) : Line :=
  [indent, "    ", Styled.dimmed (shownPath o.base f.location.file), ":",
    Styled.dimmed (toString f.location.line), " ", Palette.subject f.subject]

/-- What stands for `n` findings that are not printed. -/
def moreLines (indent : String) : Nat → List Line
  | 0 => []
  | n + 1 => [[indent, "    ", Styled.dimmed s!"... and {n + 1} more (use --expand to show all)"]]

/-- How many findings of a group are printed. -/
def printedCount (o : ReportOptions) (g : RuleGroup) : Nat :=
  if o.expand then g.count else min g.count o.maxPerGroup

/-- What is printed for a group: its title, the findings up to the limit, and the number of the
others. -/
def groupLines (o : ReportOptions) (indent : String) (g : RuleGroup) : List Line :=
  titleLine indent g ::
    ((g.findings.take (printedCount o g)).map (itemLine o indent) ++
      moreLines indent (g.count - printedCount o g))

theorem group_eq_groupLines (o : ReportOptions) (indent : String) :
    group o indent = groupLines o indent := by
  funext g
  -- taking more findings than there are takes all of them
  have htake : g.findings.take (if o.expand then g.count else o.maxPerGroup) =
      g.findings.take (printedCount o g) := by
    unfold printedCount
    split
    · rfl
    · rw [Nat.min_comm, ← List.take_take]
      exact congrArg _ List.take_length.symm
  have hhidden :
      g.count - (if o.expand then g.count else o.maxPerGroup) = g.count - printedCount o g := by
    unfold printedCount
    split <;> omega
  unfold group groupLines
  dsimp only
  rw [htake, hhidden]
  cases g.count - printedCount o g <;> rfl

/-- The categories that have groups, in the order of their titles, with their groups. -/
def sections (groups : List RuleGroup) : List (Category × List RuleGroup) :=
  (Category.all.map fun c => (c, groups.filter fun g => g.rule.category == c)).filter fun part =>
    !part.2.isEmpty

/-- The number of findings in groups. -/
def total (groups : List RuleGroup) : Nat := (groups.map RuleGroup.count).sum

/-- What is printed for a category. -/
def sectionLines (o : ReportOptions) (part : Category × List RuleGroup) : List Line :=
  [[], [Palette.category part.1, " (", Palette.count (total part.2), ")"],
    [Palette.thinDivider 40]] ++ part.2.flatMap (groupLines o "  ")

/-- What is printed after the groups. -/
def ending (o : ReportOptions) (findings : List Finding) : List Line :=
  [[], [Palette.divider 40, " ", Palette.count findings.length, " total issues"]] ++
    Summary.lines o false findings

theorem lines_byRule_eq (o : ReportOptions) (findings : List Finding) :
    lines o .byRule findings =
      if findings.isEmpty then [[Palette.success "No issues found!"]]
      else
        [[], [Palette.headline "Issues Grouped by Rule"], [Palette.divider 50], []] ++
          ((ruleGroups findings).flatMap fun g => groupLines o "" g ++ [[]]) ++
            ending o findings := by
  simp only [lines, byRule, group_eq_groupLines, ending, List.append_assoc]

theorem length_flatMap_findings (groups : List RuleGroup) :
    (groups.flatMap RuleGroup.findings).length = total groups := List.length_flatMap

theorem lines_byCategory_eq (o : ReportOptions) (findings : List Finding) :
    lines o .byCategory findings =
      if findings.isEmpty then [[Palette.success "No issues found!"]]
      else
        [[], [Palette.headline "Issues Grouped by Category"], [Palette.divider 50]] ++
          (sections (ruleGroups findings)).flatMap (sectionLines o) ++ ending o findings := by
  -- a category without groups prints nothing
  let printed (part : Category × List RuleGroup) : List Line :=
    if part.2.isEmpty then [] else sectionLines o part
  have hprinted (groups : List RuleGroup) : (sections groups).flatMap (sectionLines o) =
      (sections groups).flatMap printed := by
    refine List.flatMap_congr fun part hpart => ?_
    have hne := (List.mem_filter.mp hpart).2
    rw [Bool.not_eq_true'] at hne
    exact (if_neg (by simp [hne])).symm
  rw [hprinted, sections, flatMap_filter_of_eq_nil fun part _ hpart =>
    if_pos (by simpa using hpart), List.flatMap_map]
  simp only [lines, byCategory, group_eq_groupLines, length_flatMap_findings, ending, sectionLines,
    List.append_assoc]

/-- **Categories split the groups.** -/
theorem perm_sections (groups : List RuleGroup) :
    ((sections groups).flatMap Prod.snd).Perm groups := by
  rw [sections, flatMap_filter_of_eq_nil fun part _ hpart => by simpa using hpart, List.flatMap_map]
  exact perm_flatMap_filter (fun g : RuleGroup => g.rule.category) Category.nodup_all
    fun g _ => Category.mem_all g.rule.category

/-- The numbers that are printed for the categories add up. -/
theorem sum_total_sections (groups : List RuleGroup) :
    ((sections groups).map fun part => total part.2).sum = total groups := by
  have hperm := (perm_sections groups).flatMap_right RuleGroup.findings
  rw [List.flatMap_assoc] at hperm
  rw [← length_flatMap_findings, ← hperm.length_eq, List.length_flatMap]
  simp only [length_flatMap_findings]

end Grouped

/-! ## The report by file -/

namespace Terminal

/-- The order of findings in a file: by line and column. -/
def comparePosition : Finding → Finding → Ordering :=
  compareLex (compareOn fun f => f.location.line) (compareOn fun f => f.location.column)

instance : TransCmp comparePosition := by
  unfold comparePosition
  infer_instance

theorem isBefore_eq : isBefore = fun a b => (comparePosition a b).isLE := by
  funext a b
  rw [Bool.eq_iff_iff]
  simp only [isBefore, comparePosition, compareLex, compareOn, Ordering.isLE_then_iff_or,
    Nat.isLE_compare, Nat.compare_eq_lt, Nat.compare_eq_eq, Bool.or_eq_true, Bool.and_eq_true,
    decide_eq_true_eq, beq_iff_eq]

/-- The files that have findings, in the order of their paths. -/
def files (findings : List Finding) : List Path :=
  (distinctBy Path.same (findings.map fun f => f.location.file)).mergeSort fun a b =>
    (a.compare b).isLE

/-- The files that have findings with their findings in order. -/
def sections (findings : List Finding) : List (Path × List Finding) :=
  (files findings).map fun path =>
    (path, (findings.filter fun f => f.location.file.same path).mergeSort isBefore)

/-- The first line of a finding: its position, its severity, its rule and its message, behind a
circle for its confidence where the options ask for circles. -/
def headLine (o : ReportOptions) (f : Finding) : Line :=
  let head : Line :=
    [Palette.position f.location.line f.location.column, " ", Palette.severity f.severity, " [",
      Palette.rule f.rule, "] ", f.message]
  if o.showConfidence then "  " :: Palette.confidence f.confidence :: " " :: head else "  " :: head

/-- The second line of a finding: the name of its rule and what it is about. -/
def subjectLine (f : Finding) : Line :=
  ["    ", Styled.dimmed "→", " ", Styled.dimmed f.rule.name, " '", Palette.subject f.subject, "'"]

/-- What is printed for a file: its path, two lines for each of its findings, and an empty line. -/
def sectionLines (o : ReportOptions) (part : Path × List Finding) : List Line :=
  [Palette.path (shownPath o.base part.1)] ::
    ((part.2.flatMap fun f => [headLine o f, subjectLine f]) ++ [[]])

theorem item_eq (o : ReportOptions) : item o = fun f => [headLine o f, subjectLine f] := by
  funext f
  unfold item headLine subjectLine
  cases o.showConfidence <;> rfl

theorem file_eq_sectionLines (o : ReportOptions) (findings : List Finding) (path : Path) :
    file o findings path =
      sectionLines o
        (path, (findings.filter fun f => f.location.file.same path).mergeSort isBefore) := by
  simp only [file, sectionLines, item_eq, List.cons_append, List.nil_append]

theorem lines_eq (o : ReportOptions) (findings : List Finding) :
    lines o findings =
      if findings.isEmpty then [[Palette.success "No AdServices lint issues found!"]]
      else
        [([] : Line), ["Found ", Palette.count findings.length, " issues:"], []] ++
          (if o.showConfidence then legend else []) ++
          (sections findings).flatMap (sectionLines o) ++ Summary.lines o false findings := by
  have hfiles : file o findings = fun path => sectionLines o
      (path, (findings.filter fun f => f.location.file.same path).mergeSort isBefore) :=
    funext (file_eq_sectionLines o findings)
  simp only [lines, hfiles, sections, List.flatMap_map, files]

/-- The circle for a confidence. -/
def circle : Confidence → String
  | .high => "●"
  | .medium => "◐"
  | .low => "○"

/-- The text of the first line of a finding. -/
def headText (o : ReportOptions) (f : Finding) : String :=
  (if o.showConfidence then s!"  {circle f.confidence} " else "  ") ++
    s!"{Text.padLeft 5 (toString f.location.line)}:" ++
    s!"{Text.padRight 3 (toString f.location.column)} " ++
    s!"{Text.padRight 7 f.severity.label} [{f.rule.code}] {f.message}"

/-- The text of the second line of a finding. -/
def subjectText (f : Finding) : String := s!"    → {f.rule.name} '{f.subject}'"

theorem printed_headLine (o : ReportOptions) (f : Finding) :
    (headLine o f).printed false = headText o f := by
  have hseverity : (Palette.severity f.severity).text = Text.padRight 7 f.severity.label := by
    cases f.severity <;> rfl
  have hconfidence : (Palette.confidence f.confidence).text = circle f.confidence := by
    cases f.confidence <;> rfl
  unfold headLine headText
  cases o.showConfidence <;>
  simp [Line.printed, Styled.printed, String.join, hseverity, hconfidence, Palette.position,
    Palette.rule, Styled.dimmed, Styled.colored, toString, ← String.append_assoc]

theorem printed_subjectLine (f : Finding) :
    (subjectLine f).printed false = subjectText f := by
  simp [Line.printed, Styled.printed, String.join, subjectLine, subjectText, Palette.subject,
    Styled.dimmed, Styled.bold, toString]

/-- Parts that **split findings by their files**: one for each file that has findings, the files in
the order of their paths, with all findings of the file, sorted by line and column. -/
structure SplitsByFile (findings : List Finding) (parts : List (Path × List Finding)) : Prop where
  perm : (parts.flatMap Prod.snd).Perm findings
  ascending : parts.Pairwise fun a b => a.1.compare b.1 = .lt
  nonempty : ∀ part ∈ parts, part.2 ≠ []
  sorted : ∀ part ∈ parts, IsStableSort comparePosition
    (findings.filter fun f => f.location.file.same part.1) part.2

section Files

variable {findings : List Finding} {path : Path} {f : Finding}

theorem ascending_files (findings : List Finding) :
    (files findings).Pairwise fun p q => p.compare q = .lt := by
  refine ((IsStableSort.mergeSort _).pairwise (pairwise_distinctBy Path.same _)).imp
    fun {p q} hpq => ?_
  rcases hpq with hlt | ⟨heq, hne⟩
  · exact hlt
  · rw [Path.same_iff.mpr (Path.compare_eq_iff.mp heq)] at hne
    cases hne

theorem exists_finding_of_mem_files (hpath : path ∈ files findings) :
    ∃ f ∈ findings, f.location.file = path :=
  List.mem_map.mp ((distinctBy_sublist Path.same _).subset (List.mem_mergeSort.mp hpath))

theorem exists_mem_files (hf : f ∈ findings) :
    ∃ path ∈ files findings, path.components = f.location.file.components := by
  obtain ⟨path, hpath, hsame⟩ := exists_components_mem_distinctBy
    (List.mem_map.mpr ⟨f, hf, rfl⟩ : f.location.file ∈ findings.map fun f => f.location.file)
  exact ⟨path, List.mem_mergeSort.mpr hpath, hsame⟩

/-- The findings of all files, one file after the other, are all findings. -/
theorem perm_flatMap_files (findings : List Finding) :
    ((files findings).flatMap fun path => findings.filter fun f => f.location.file.same path).Perm
      findings := by
  have hkeys : ((files findings).map Path.components).Nodup := by
    refine List.pairwise_map.mpr ((ascending_files findings).imp fun {p q} hlt heq => ?_)
    rw [Path.compare_eq_iff.mpr heq] at hlt
    cases hlt
  have hall :
      ∀ f ∈ findings, f.location.file.components ∈ (files findings).map Path.components := by
    intro f hf
    obtain ⟨path, hpath, hsame⟩ := exists_mem_files hf
    exact List.mem_map.mpr ⟨path, hpath, hsame⟩
  refine (List.Perm.of_eq ?_).trans
    (perm_flatMap_filter (fun f : Finding => f.location.file.components) hkeys hall)
  rw [List.flatMap_map]
  refine List.flatMap_congr fun path _ => List.filter_congr fun f _ => ?_
  exact Bool.eq_iff_iff.mpr (Path.same_iff.trans beq_iff_eq.symm)

/-- **Files split the findings.** -/
theorem splitsByFile_sections (findings : List Finding) :
    SplitsByFile findings (sections findings) where
  perm := by
    rw [sections, List.flatMap_map]
    exact (List.Perm.flatMap_left _ fun path _ => List.mergeSort_perm _ _).trans
      (perm_flatMap_files findings)
  ascending := List.pairwise_map.mpr (ascending_files findings)
  nonempty := by
    intro part hpart
    obtain ⟨path, hpath, rfl⟩ := List.mem_map.mp hpart
    obtain ⟨f, hf, rfl⟩ := exists_finding_of_mem_files hpath
    have hmem : f ∈ findings.filter fun g => g.location.file.same f.location.file :=
      List.mem_filter.mpr ⟨hf, Path.same_refl _⟩
    exact List.ne_nil_of_mem (List.mem_mergeSort.mpr hmem)
  sorted := by
    intro part hpart
    obtain ⟨path, -, rfl⟩ := List.mem_map.mp hpart
    rw [isBefore_eq]
    exact IsStableSort.mergeSort _

end Files

end Terminal

/-! ## All reports -/

/-- **No report loses or repeats a finding.** The groups split the findings by their rules. The
report by rule prints all groups and the report by category the same groups in sections whose
numbers add up; of a group they print as many findings as the options allow, and the number of the
others. The report by file prints all findings, each in two lines under its file, the files in the
order of their paths and the findings of a file in the order of their positions. The counts by
severity, by confidence, by category and by rule all add up to the number of findings, and files
count once if they have the same components. -/
theorem reports_print_all_findings (o : ReportOptions) (findings : List Finding) :
    let groups := ruleGroups findings
    let s : Statistics := ⟨findings⟩
    SplitsByRule findings groups ∧
      (Grouped.lines o .byRule findings =
        if findings.isEmpty then [[Palette.success "No issues found!"]]
        else
          [[], [Palette.headline "Issues Grouped by Rule"], [Palette.divider 50], []] ++
            (groups.flatMap fun g => Grouped.groupLines o "" g ++ [[]]) ++
              Grouped.ending o findings) ∧
      (Grouped.lines o .byCategory findings =
        if findings.isEmpty then [[Palette.success "No issues found!"]]
        else
          [[], [Palette.headline "Issues Grouped by Category"], [Palette.divider 50]] ++
            (Grouped.sections groups).flatMap (Grouped.sectionLines o) ++
            Grouped.ending o findings) ∧
      ((Grouped.sections groups).flatMap Prod.snd).Perm groups ∧
      ((Grouped.sections groups).map fun part => Grouped.total part.2).sum = findings.length ∧
      Terminal.SplitsByFile findings (Terminal.sections findings) ∧
      (Terminal.lines o findings =
        if findings.isEmpty then [[Palette.success "No AdServices lint issues found!"]]
        else
          [([] : Line), ["Found ", Palette.count findings.length, " issues:"], []] ++
            (if o.showConfidence then Terminal.legend else []) ++
            (Terminal.sections findings).flatMap (Terminal.sectionLines o) ++
            Summary.lines o false findings) ∧
      (∀ f ∈ findings, (Terminal.headLine o f).printed false = Terminal.headText o f ∧
        (Terminal.subjectLine f).printed false = Terminal.subjectText f) ∧
      s.total = findings.length ∧
      s.ofSeverity .error + s.ofSeverity .warning + s.ofSeverity .info = s.total ∧
      s.ofConfidence .high + s.ofConfidence .medium + s.ofConfidence .low = s.total ∧
      (s.byCategory.map Prod.snd).sum = s.total ∧
      (s.byRule.map Prod.snd).sum = s.total ∧
      s.fileCount = (findings.map fun f => f.location.file.components).dedup.length := by
  have hsplit := splitsByRule_ruleGroups findings
  refine ⟨hsplit, Grouped.lines_byRule_eq o findings, Grouped.lines_byCategory_eq o findings,
    Grouped.perm_sections _, ?_, Terminal.splitsByFile_sections findings,
    Terminal.lines_eq o findings,
    fun f _ => ⟨Terminal.printed_headLine o f, Terminal.printed_subjectLine f⟩, rfl,
    Statistics.sum_severities _, Statistics.sum_confidences _, Statistics.sum_byCategory _,
    Statistics.sum_byRule _, Statistics.fileCount_eq _⟩
  rw [Grouped.sum_total_sections, ← Grouped.length_flatMap_findings, hsplit.perm.length_eq]

/-! Three findings in two files, one of them written in two ways with the same components. The
options show one finding of a group. -/

/-- Options that show one finding of a group and no circles. -/
def shortOptions : ReportOptions := { maxPerGroup := 1, showConfidence := false }

/-- The findings. -/
def noteFindings : List Finding :=
  [.ofRule .eagerJobServiceField ⟨⟨"src/Sync.java"⟩, 12, 5, 90, 99⟩ "later",
    .ofRule .unprefixedFile ⟨⟨"src/Cache.kt"⟩, 4, 9, 30, 40⟩ "cache.db",
    .ofRule .eagerJobServiceField ⟨⟨"src//Sync.java"⟩, 3, 5, 20, 29⟩ "first"]

theorem files_noteFindings :
    Terminal.files noteFindings = [⟨"src/Cache.kt"⟩, ⟨"src/Sync.java"⟩] := by
  have hdistinct : distinctBy Path.same (noteFindings.map fun f => f.location.file) =
      [⟨"src/Sync.java"⟩, ⟨"src/Cache.kt"⟩] := by
    decide +kernel
  have horder : (Path.compare ⟨"src/Sync.java"⟩ ⟨"src/Cache.kt"⟩).isLE = false := by
    decide +kernel
  rw [Terminal.files, hdistinct]
  simp [List.mergeSort, horder]

theorem sections_noteFindings :
    Terminal.sections noteFindings =
      [(⟨"src/Cache.kt"⟩, (noteFindings.drop 1).take 1),
        (⟨"src/Sync.java"⟩, (noteFindings.drop 2).take 1 ++ noteFindings.take 1)] := by
  have hcache : (noteFindings.filter fun f => f.location.file.same ⟨"src/Cache.kt"⟩) =
      (noteFindings.drop 1).take 1 := by
    decide +kernel
  have hsync : (noteFindings.filter fun f => f.location.file.same ⟨"src/Sync.java"⟩) =
      noteFindings.take 1 ++ (noteFindings.drop 2).take 1 := by
    decide +kernel
  rw [Terminal.sections, files_noteFindings, List.map_cons, List.map_singleton, hcache, hsync]
  simp [noteFindings, List.mergeSort, Terminal.isBefore, Finding.ofRule]

theorem ruleGroups_noteFindings :
    ruleGroups noteFindings =
      [⟨.eagerJobServiceField, noteFindings.take 1 ++ (noteFindings.drop 2).take 1⟩,
        ⟨.unprefixedFile, (noteFindings.drop 1).take 1⟩] := by
  simp [ruleGroups, Rule.all, noteFindings, Finding.ofRule, largestFirst, List.mergeSort,
    RuleGroup.count]

theorem reports_print_all_findings_notes :
    (Terminal.lines shortOptions noteFindings).map (Line.printed false) =
        ["", "Found 3 issues:", "",
          "src/Cache.kt",
          "      4:9   error   [BC002] Persisted file 'cache.db' must be named with the " ++
            "adservices prefix",
          "    → NewAdServicesFile 'cache.db'", "",
          "src/Sync.java",
          "      3:5   error   [BC001] Field 'first' of a JobService is initialized at " ++
            "construction; defer it to onStartJob",
          "    → JobServiceFieldInitializer 'first'",
          "     12:5   error   [BC001] Field 'later' of a JobService is initialized at " ++
            "construction; defer it to onStartJob",
          "    → JobServiceFieldInitializer 'later'", ""] ++
        (Summary.lines shortOptions false noteFindings).map (Line.printed false) ∧
      ((ruleGroups noteFindings).flatMap (Grouped.groupLines shortOptions "")).map
          (Line.printed false) =
        ["error   BC001 JobServiceFieldInitializer (2)", "    src/Sync.java:12 later",
          "    ... and 1 more (use --expand to show all)",
          "error   BC002 NewAdServicesFile (1)", "    src/Cache.kt:4 cache.db"] ∧
      ((Grouped.sections (ruleGroups noteFindings)).map fun part =>
        Grouped.total part.2).sum = 3 ∧
      Statistics.fileCount ⟨noteFindings⟩ = 2 := by
  obtain ⟨-, -, -, -, hsum, -, hlines, -, -, -, -, -, -, hfiles⟩ :=
    reports_print_all_findings shortOptions noteFindings
  refine ⟨?_, ?_, hsum, ?_⟩
  · rw [hlines, sections_noteFindings, if_neg (by decide), List.map_append]
    refine congrArg (· ++ _) ?_
    decide +kernel
  · rw [ruleGroups_noteFindings]
    decide +kernel
  · rw [hfiles]
    decide +kernel

end AdLint
