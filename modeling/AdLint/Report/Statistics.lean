import AdLint.Finding
import AdLint.Project.Basic

/-!
# Counts of findings

How many findings there are of each severity, confidence, category and rule, and in how many files.
-/

namespace AdLint

/-- The findings of one rule. -/
structure RuleGroup where
  rule : Rule
  findings : List Finding
  deriving Inhabited

namespace RuleGroup

/-- The number of findings in a group. -/
def count (g : RuleGroup) : Nat := g.findings.length

/-- The highest severity in a group. -/
def severity (g : RuleGroup) : Severity :=
  match g.findings.map fun f => f.severity with
  | [] => g.rule.severity
  | s :: ss => ss.foldl Severity.max s

end RuleGroup

/-- Entries with the larger counts first; entries with equal counts keep their order. -/
def largestFirst {α : Type} (count : α → Nat) (entries : List α) : List α :=
  entries.mergeSort fun a b => count b ≤ count a

/-- The findings by rule, the largest group first and groups of one size in the order of the
rules. -/
def ruleGroups (findings : List Finding) : List RuleGroup :=
  let groups := Rule.all.map fun rule => ⟨rule, findings.filter fun f => f.rule == rule⟩
  largestFirst RuleGroup.count (groups.filter fun g => !g.findings.isEmpty)

/-- Findings counted in several ways. -/
structure Statistics where
  findings : List Finding
  deriving Inhabited

namespace Statistics

/-- The number of findings that satisfy a condition. -/
def countOf (s : Statistics) (condition : Finding → Bool) : Nat := s.findings.countP condition

/-- The number of findings. -/
def total (s : Statistics) : Nat := s.findings.length

/-- The number of findings of a severity. -/
def ofSeverity (s : Statistics) (severity : Severity) : Nat :=
  s.countOf fun f => f.severity == severity

/-- The number of findings of a confidence. -/
def ofConfidence (s : Statistics) (confidence : Confidence) : Nat :=
  s.countOf fun f => f.confidence == confidence

/-- The categories that have findings with their counts, in the order of their titles. -/
def byCategory (s : Statistics) : List (Category × Nat) :=
  (Category.all.map fun c => (c, s.countOf fun f => f.rule.category == c)).filter fun e => e.2 != 0

/-- The rules that have findings with their counts, in the order of the rules. -/
def byRule (s : Statistics) : List (Rule × Nat) :=
  (Rule.all.map fun r => (r, s.countOf fun f => f.rule == r)).filter fun e => e.2 != 0

/-- The number of files with findings. Paths count once if they have the same components. -/
def fileCount (s : Statistics) : Nat :=
  (distinctBy Path.same (s.findings.map fun f => f.location.file)).length

end Statistics

end AdLint
