import AdLint.Proofs.FindingCounts
import AdLint.Proofs.Suppression

/-!
# An analysis as a pipeline

What an analysis lists, said without its steps. A word of the settings denotes a rule by its code or
its name, and the words decide which rules run and which severity a finding gets. An analysis lists
the findings of the six checks, those of rules that run and that the source does not suppress, each
with its severity, ordered by the components of the path, the line, the column and the rule.

The order is written out with a key for each part. Component by component it is the order in which
the program lists findings, and so the two sort alike.

## Main definitions

* `Rule.DenotedBy`: the words that denote a rule
* `Settings.Runs`, `Settings.Gives`, `Settings.Regrades`: what the settings say on rules and
  findings
* `Project.Suppresses`: the findings that the source suppresses
* `Finding.byPosition`: the order of a listing

## Main results

* `Rule.parse?_eq_some_iff`: a word denotes at most one rule, and that one is read from it
* `Settings.enables_iff`, `Settings.severityOf?_eq_some_iff`: the settings are read as they say
* `Finding.byPosition_eq_compare`: the order of a listing is the order of the program
* `analyze_pipeline`: an analysis is the plain pipeline, and choosing rules filters it
-/

namespace AdLint

open Std Project

/-! ## The words for a rule -/

namespace Rule

/-- A word **denotes** a rule: without the blanks around it, and in any case of its letters, it is
the code or the name of the rule. -/
def DenotedBy (rule : Rule) (word : String) : Prop :=
  Text.lowerAscii (Text.trim word) = Text.lowerAscii rule.code ∨
    Text.lowerAscii (Text.trim word) = Text.lowerAscii rule.name

/-- The texts that a word may be, in small letters, to denote a rule. -/
def handles (rule : Rule) : List String := [Text.lowerAscii rule.code, Text.lowerAscii rule.name]

theorem denotedBy_iff {rule : Rule} {word : String} :
    rule.DenotedBy word ↔ Text.lowerAscii (Text.trim word) ∈ rule.handles := by
  simp only [DenotedBy, handles, List.mem_cons, List.not_mem_nil, or_false]

theorem answersTo_trim_iff {rule : Rule} {word : String} :
    rule.answersTo (Text.trim word) = true ↔ rule.DenotedBy word := by
  rw [answersTo, Bool.or_eq_true, Text.sameIgnoringAsciiCase, Text.sameIgnoringAsciiCase,
    beq_iff_eq, beq_iff_eq]
  exact or_congr eq_comm eq_comm

/-- No two rules share a code or a name. -/
theorem handles_disjoint {a b : Rule} {word : String} (ha : word ∈ a.handles)
    (hb : word ∈ b.handles) : a = b := by
  have hdistinct : ∀ a ∈ all, ∀ b ∈ all, ∀ word ∈ a.handles, word ∈ b.handles → a = b := by
    decide +kernel
  exact hdistinct a (mem_all a) b (mem_all b) word ha hb

theorem DenotedBy.unique {a b : Rule} {word : String} (ha : a.DenotedBy word)
    (hb : b.DenotedBy word) : a = b :=
  handles_disjoint (denotedBy_iff.mp ha) (denotedBy_iff.mp hb)

/-- **The rule that is read from a word** is the one that the word denotes. -/
theorem parse?_eq_some_iff {word : String} {rule : Rule} :
    parse? word = some rule ↔ rule.DenotedBy word := by
  have hsound {found : Rule} (h : parse? word = some found) : found.DenotedBy word := by
    rw [parse?] at h
    have hanswers := List.find?_some h
    exact answersTo_trim_iff.mp hanswers
  constructor
  · intro h
    exact hsound h
  · intro h
    -- some rule is found, since this one would do, and no other rule answers to the word
    cases hfound : parse? word with
    | none =>
      rw [parse?] at hfound
      have hno := List.find?_eq_none.mp hfound rule (mem_all rule)
      exact absurd (answersTo_trim_iff.mpr h) hno
    | some other => rw [(hsound hfound).unique h]

end Rule

/-! ## What the settings say -/

namespace Settings

variable (s : Settings) (rule : Rule)

/-- A rule **runs** under the settings: none of the disabled words denotes it, and one of the
enabled words does unless there are none. -/
def Runs : Prop :=
  (∀ word ∈ s.rules.disabled, ¬rule.DenotedBy word) ∧
    (s.rules.enabled = [] ∨ ∃ word ∈ s.rules.enabled, rule.DenotedBy word)

/-- The settings **give** a rule a severity: it stands in their first entry for the rule. -/
def Gives (severity : Severity) : Prop :=
  ∃ before word after, s.rules.severity = before ++ (word, severity) :: after ∧
    rule.DenotedBy word ∧ ∀ entry ∈ before, ¬rule.DenotedBy entry.1

/-- The settings **regrade** a finding: the severity that they give its rule replaces its own, and
nothing else changes. -/
structure Regrades (f g : Finding) : Prop where
  same : g = { f with severity := g.severity }
  given : ∀ severity, s.Gives f.rule severity → g.severity = severity
  kept : (¬∃ severity, s.Gives f.rule severity) → g.severity = f.severity

variable {s rule}

theorem lists_iff {words : List String} :
    lists words rule = true ↔ ∃ word ∈ words, rule.DenotedBy word := by
  simp only [lists, List.any_eq_true, beq_iff_eq, Rule.parse?_eq_some_iff]

theorem enables_iff : s.enables rule = true ↔ s.Runs rule := by
  rw [enables, Bool.and_eq_true, Bool.not_eq_true', Bool.or_eq_true, List.isEmpty_iff, lists_iff,
    ← Bool.not_eq_true, lists_iff]
  refine and_congr_left fun _ => ?_
  simp only [not_exists, not_and]

instance : Decidable (s.Runs rule) := decidable_of_iff _ enables_iff

theorem enables_eq_decide : s.enables rule = decide (s.Runs rule) := by
  rw [Bool.eq_iff_iff, enables_iff, decide_eq_true_eq]

theorem severityOf?_eq_some_iff {severity : Severity} :
    s.severityOf? rule = some severity ↔ s.Gives rule severity := by
  simp only [severityOf?, Option.map_eq_some_iff, List.find?_eq_some_iff_append, beq_iff_eq,
    Rule.parse?_eq_some_iff, Bool.not_eq_eq_eq_not, Bool.not_true, beq_eq_false_iff_ne, ne_eq]
  constructor
  · rintro ⟨⟨word, _⟩, ⟨hdenoted, before, after, hentries, hbefore⟩, rfl⟩
    exact ⟨before, word, after, hentries, hdenoted, hbefore⟩
  · rintro ⟨before, word, after, hentries, hdenoted, hbefore⟩
    exact ⟨(word, severity), ⟨hdenoted, before, after, hentries, hbefore⟩, rfl⟩

theorem regrades_withSettings (f : Finding) : s.Regrades f (f.withSettings s) := by
  refine ⟨rfl, fun severity hgives => ?_, fun hnone => ?_⟩
  · rw [Finding.withSettings, severityOf?_eq_some_iff.mpr hgives, Option.getD_some]
  · have hnot : s.severityOf? f.rule = none := by
      refine Option.eq_none_iff_forall_ne_some.mpr fun severity hsome => ?_
      exact hnone ⟨severity, severityOf?_eq_some_iff.mp hsome⟩
    rw [Finding.withSettings, hnot, Option.getD_none]

end Settings

/-! ## What the source suppresses -/

/-- The source **suppresses** a finding: a declaration whose range has the finding in it carries a
suppressing annotation that names the rule. -/
def Project.Suppresses (p : Project) (f : Finding) : Prop :=
  ∃ d ∈ p.declarations,
    (d.location.file.components = f.location.file.components ∧
      d.location.start ≤ f.location.start ∧ f.location.stop ≤ d.location.stop) ∧
    ∃ a ∈ d.annotations,
      a.simpleName ∈ ["SuppressLint", "Suppress", "SuppressWarnings"] ∧ a.Names f.rule

theorem isSuppressed_iff_suppresses {p : Project} {f : Finding} :
    isSuppressed p f = true ↔ p.Suppresses f := by
  simp only [isSuppressed_iff, Project.Suppresses, Location.contains_iff, Path.same, beq_iff_eq]
  rfl

instance (p : Project) (f : Finding) : Decidable (p.Suppresses f) :=
  decidable_of_iff _ isSuppressed_iff_suppresses

theorem isSuppressed_eq_decide {p : Project} {f : Finding} :
    isSuppressed p f = decide (p.Suppresses f) := by
  rw [Bool.eq_iff_iff, isSuppressed_iff_suppresses, decide_eq_true_eq]

/-! ## The order of a listing -/

/-- The key of a component in the order of paths: the root, the current directory and the parent
come first, and the names after them stand in the order of their texts. -/
def Component.key : Component → Nat × String
  | .root => (0, "")
  | .current => (1, "")
  | .parent => (2, "")
  | .named name => (3, name)

/-- The order of components by their keys. -/
def Component.byKey : Component → Component → Ordering :=
  compareLex (compareOn fun c => c.key.1) (compareOn fun c => c.key.2)

theorem Component.byKey_eq_compare : Component.byKey = Component.compare := by
  funext a b
  cases a <;> cases b <;> rfl

/-- The **order of a listing**: by the components of the path, then by line, by column, and by the
place of the rule among the rules. -/
def Finding.byPosition : Finding → Finding → Ordering :=
  compareLex (fun a b =>
      List.compareLex Component.byKey a.location.file.components b.location.file.components) <|
  compareLex (compareOn fun f => f.location.line) <|
  compareLex (compareOn fun f => f.location.column) <|
  compareOn fun f => f.rule.ctorIdx

theorem Rule.rank_eq_ctorIdx (rule : Rule) : rule.rank = rule.ctorIdx := by
  cases rule <;> rfl

theorem Finding.byPosition_eq_compare : Finding.byPosition = Finding.compare := by
  have hfile : (fun a b : Finding => List.compareLex Component.byKey a.location.file.components
      b.location.file.components) = compareFile := by
    funext a b
    rw [Component.byKey_eq_compare, compareFile, Path.compare_eq_lex]
  have hrule : (fun f : Finding => f.rule.ctorIdx) = fun f => f.rule.rank :=
    funext fun f => (Rule.rank_eq_ctorIdx f.rule).symm
  rw [byPosition, hfile, hrule, compare_eq_lex]

/-! ## The pipeline -/

theorem foundBy_eq (s : Settings) (p : Project) :
    foundBy s p =
      (RoomScan.start p s.room).run ++
      (RestrictedApi.systemProperties s.restrictedApis).findings p ++
      (RestrictedApi.deviceConfig s.restrictedApis).findings p ++ JobService.findings p ++
      FileNaming.findings s.fileNaming p ++ ManifestProcess.findings s.manifest p := by
  simp only [foundBy, Check.all, List.flatMap_cons, List.flatMap_nil, List.append_nil,
    List.append_assoc]
  rfl

theorem keptFindings_eq_map (s : Settings) (p : Project) :
    keptFindings s p =
      ((foundBy s p).filter fun f => s.Runs f.rule ∧ ¬p.Suppresses f).map
        (Finding.withSettings s) := by
  simp only [keptFindings, Settings.enables_eq_decide, isSuppressed_eq_decide, Bool.decide_and,
    decide_not]

/-- An analysis is the **plain pipeline** that skips no check: of the findings of the six checks it
takes those of rules that run and that the source does not suppress, regrades them, and sorts them
stably by their position. So choosing rules only filters the result of the analysis with every
rule. -/
theorem analyze_pipeline (s : Settings) (p : Project) :
    (∃ regraded,
      List.Forall₂ s.Regrades
        (((RoomScan.start p s.room).run ++
          (RestrictedApi.systemProperties s.restrictedApis).findings p ++
          (RestrictedApi.deviceConfig s.restrictedApis).findings p ++ JobService.findings p ++
          FileNaming.findings s.fileNaming p ++ ManifestProcess.findings s.manifest p).filter
            fun f => s.Runs f.rule ∧ ¬p.Suppresses f)
        regraded ∧
      IsStableSort Finding.byPosition regraded (analyze s p)) ∧
    analyze s p =
      (analyze { s with rules := { s.rules with disabled := [], enabled := [] } } p).filter
        fun f => s.Runs f.rule := by
  constructor
  · refine ⟨keptFindings s p, ?_, ?_⟩
    · rw [← foundBy_eq, keptFindings_eq_map, List.forall₂_map_right_iff]
      exact List.forall₂_same.mpr fun f _ => Settings.regrades_withSettings f
    · rw [Finding.byPosition_eq_compare]
      exact analyze_isStableSort s p
  · have hfilter := analyze_eq_filter s p
    simp only [Settings.enables_eq_decide] at hfilter
    exact hfilter

/-- Settings that give the rule on job services another severity, with blanks and small letters in
the word for it. A later entry for the rule and one for another rule change nothing. -/
def regradingSettings : Settings :=
  { rules :=
      { disabled := ["RoomVersionMismatch"]
        severity :=
          [("AS001", .warning), (" bc001 ", .info), ("JobServiceFieldInitializer", .error)] } }

/-- Both fields of the job service are found as errors and listed with the severity of the
settings. -/
theorem analyze_pipeline_regraded :
    regradingSettings.Gives .eagerJobServiceField .info ∧
      (JobService.findings syncProject).map (fun f => f.severity) = [.error, .error] ∧
      (analyze regradingSettings syncProject).length = 2 ∧
      ∀ f ∈ analyze regradingSettings syncProject,
        f.rule = .eagerJobServiceField ∧ f.severity = .info := by
  have hgives : regradingSettings.Gives .eagerJobServiceField .info :=
    Settings.severityOf?_eq_some_iff.mp (by decide +kernel)
  have hruns : regradingSettings.Runs .eagerJobServiceField := by decide +kernel
  have hfound : (foundBy regradingSettings syncProject).map (fun f => f.rule) =
      [.eagerJobServiceField, .eagerJobServiceField] := by
    decide +kernel
  -- both findings are kept: their rule runs, and nothing in the source is annotated
  have hkept : ∀ f ∈ foundBy regradingSettings syncProject,
      f.rule = .eagerJobServiceField ∧ ¬syncProject.Suppresses f := by
    intro f hf
    have hrule : f.rule ∈ [Rule.eagerJobServiceField, .eagerJobServiceField] :=
      hfound ▸ List.mem_map_of_mem hf
    have hkept : isSuppressed syncProject f = false :=
      isSuppressed_of_unannotated (by decide) f
    rw [isSuppressed_eq_decide, decide_eq_false_iff_not] at hkept
    exact ⟨by simpa using hrule, hkept⟩
  obtain ⟨⟨regraded, hregraded, hsort⟩, -⟩ := analyze_pipeline regradingSettings syncProject
  rw [← foundBy_eq, List.filter_eq_self.mpr fun f hf =>
    decide_eq_true ⟨(hkept f hf).1 ▸ hruns, (hkept f hf).2⟩] at hregraded
  refine ⟨hgives, by decide +kernel, ?_, fun g hg => ?_⟩
  · rw [hsort.perm.length_eq, ← hregraded.length_eq]
    simpa using congrArg List.length hfound
  · obtain ⟨i, rfl⟩ := List.mem_iff_get.mp (hsort.perm.mem_iff.mp hg)
    have hi : i.1 < (foundBy regradingSettings syncProject).length := by
      rw [hregraded.length_eq]
      exact i.isLt
    have hregrades := hregraded.get hi i.isLt
    have hrule := (hkept _ (List.get_mem _ ⟨i, hi⟩)).1
    refine ⟨?_, hregrades.given .info (hrule ▸ hgives)⟩
    rw [hregrades.same]
    exact hrule

end AdLint
