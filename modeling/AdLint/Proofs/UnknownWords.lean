import AdLint.Proofs.PrintedDocument

/-!
# Unknown words on the command line

A command line names rules, a confidence and a grouping by words, and a word may mean nothing.
Unknown rules and confidences are found out while a run still only reads, so that it ends with an
error before it has written anything. The grouping is looked up last, for the report. By then a
baseline has been saved, and a run that has nothing to report, or no use for a grouping, never asks
what the word means.

## Main definitions

* `CommandLine.FiltersByUnknown`: an unknown word among those that choose findings
* `CommandLine.GroupsByUnknown`: an unknown word for the grouping

## Main results

* `exists_survey_eq_error`: an unknown rule or confidence ends a run before it writes anything
* `conclude_of_groupsByUnknown`: an unknown grouping ends it after a baseline is saved
* `unknown_words_end_run`: what becomes of a run with an unknown word, and of the files
-/

namespace AdLint

/-! ## Unknown words -/

namespace CommandLine

/-- A word that chooses findings is unknown: one for a rule, or the one for the confidence. -/
def FiltersByUnknown (c : CommandLine) : Prop :=
  (∃ word ∈ c.rules ++ c.disable, Rule.parse? word = none) ∨
    Confidence.parse? c.minConfidence = none

/-- The word for the grouping is unknown. -/
def GroupsByUnknown (c : CommandLine) (word : String) : Prop :=
  c.groupBy = some word ∧ Grouping.parse? word = none

end CommandLine

theorem Settings.isSome_unknownIn? {listName : String} {words : List String} {word : String}
    (hmem : word ∈ words) (hword : Rule.parse? word = none) :
    (unknownIn? listName words).isSome = true := by
  rw [unknownIn?, Option.isSome_map, List.find?_isSome]
  exact ⟨word, hmem, by rw [hword]; rfl⟩

/-- Settings with an unknown rule from the command line have a mistake. -/
theorem isSome_mistake?_applyTo {c : CommandLine} {word : String}
    (hmem : word ∈ c.rules ++ c.disable)
    (hword : Rule.parse? word = none) (s : Settings) : ((c.applyTo s).mistake?).isSome = true := by
  unfold Settings.mistake?
  simp only [Option.isSome_or, Bool.or_eq_true]
  rcases List.mem_append.mp hmem with hrules | hdisable
  · -- rules that are asked for take the place of those of the settings
    have henabled : (c.applyTo s).rules.enabled = c.rules :=
      if_neg (by simpa using List.ne_nil_of_mem hrules)
    right
    left
    rw [henabled]
    exact Settings.isSome_unknownIn? hrules hword
  · left
    exact Settings.isSome_unknownIn? (List.mem_append_right _ hdisable) hword

theorem exists_settings_eq_error {c : CommandLine} {word : String}
    (hmem : word ∈ c.rules ++ c.disable)
    (hword : Rule.parse? word = none) (t : FileTree) : ∃ e, c.settings t = .error e := by
  have hchecked (s : Settings) : ∃ e, (c.applyTo s).checked = .error e := by
    obtain ⟨mistake, hmistake⟩ := Option.isSome_iff_exists.mp (isSome_mistake?_applyTo hmem hword s)
    exact ⟨.mistake mistake, by rw [Settings.checked, hmistake]⟩
  -- wherever the settings come from, they are checked after the command line is applied
  have hloaded (loaded : Except SettingsError Settings) :
      ∃ e, (loaded >>= fun s => (c.applyTo s).checked) = .error e := by
    cases loaded with
    | error e => exact ⟨e, rfl⟩
    | ok s => exact hchecked s
  unfold CommandLine.settings
  cases c.config with
  | some path => exact hloaded (Settings.load t path)
  | none => exact hloaded (Settings.find t c.project)

/-! ## How a run ends -/

/-- **An unknown rule or confidence ends a run before it writes anything.** -/
theorem exists_survey_eq_error {c : CommandLine} (hanalyzes : c.Analyzes) (h : c.FiltersByUnknown)
    (t : FileTree) : ∃ e, c.survey t = .error e := by
  unfold CommandLine.survey
  rw [hanalyzes.1, hanalyzes.2]
  simp only [Option.isSome_none, Bool.or_self, Bool.false_eq_true, if_false]
  rcases h with ⟨word, hmem, hword⟩ | hconfidence
  · obtain ⟨e, he⟩ := exists_settings_eq_error hmem hword t
    rw [he]
    exact ⟨_, rfl⟩
  -- the confidence is looked up after the settings, whose error would come first
  · have hparse : Confidence.parse c.minConfidence =
        .error (.confidence (Text.lowerAscii c.minConfidence)) := by
      rw [Confidence.parse, hconfidence]
    cases c.settings t with
    | error e => exact ⟨_, rfl⟩
    | ok s =>
      rw [hparse]
      exact ⟨_, rfl⟩

theorem reportFormat_of_groupsByUnknown {c : CommandLine} {word : String}
    (h : c.GroupsByUnknown word)
    (hsummary : c.summary = false) : c.reportFormat = .error (.grouping word) := by
  unfold CommandLine.reportFormat Grouping.parse
  rw [hsummary, h.1]
  dsimp only
  rw [h.2]
  rfl

/-- An unknown grouping ends a run after a baseline is saved, and before a report is written. -/
theorem conclude_of_groupsByUnknown {c : CommandLine} {word : String} (h : c.GroupsByUnknown word)
    (hsummary : c.summary = false) (colors : Bool) (v : Survey) (o : Output) :
    ∃ o', c.conclude colors v o = (.error (.word (.grouping word)), o') ∧
      o'.files = c.filesAfterSaving o.files v.found := by
  unfold CommandLine.conclude
  rw [reportFormat_of_groupsByUnknown h hsummary]
  refine ⟨_, rfl, ?_⟩
  rw [files_applyBaseline, files_saveBaseline_eq]

/-- A summary has no use for a grouping. -/
theorem run_of_summary {c : CommandLine} (hsummary : c.summary = true) (colors : Bool) :
    run c colors = run { c with groupBy := none } colors := by
  have hformat : c.reportFormat = ({ c with groupBy := none } : CommandLine).reportFormat := by
    simp only [CommandLine.reportFormat, hsummary, if_true]
  unfold run runWith
  rw [hformat]
  rfl

theorem survey_of_not_analyzes {c : CommandLine} (h : ¬ c.Analyzes) (t : FileTree) :
    c.survey t = .ok none := by
  unfold CommandLine.survey
  rw [if_pos]
  unfold CommandLine.Analyzes at h
  cases hcompletions : c.completions with
  | some shell => rfl
  | none => simpa [hcompletions] using h

/-- A run ends with what its program returns, and the files are the same. -/
theorem program_files {words : List String} {c : CommandLine}
    (hwords : CommandLine.parse words = .ok c)
    (colors : Bool) (t : FileTree) :
    (program words colors t).output.files = ((run c colors).run { files := t }).2.files := by
  unfold program
  rw [hwords]
  dsimp only
  rcases (run c colors).run { files := t } with ⟨_ | grave, o⟩ <;> rfl

/-- **What becomes of a run with an unknown word.** An unknown rule or confidence ends it with an
error, and no file is written. An unknown grouping ends it with an error only if there is something
to analyze and no summary is asked for, and then a baseline has been saved, though no report is
written. -/
theorem unknown_words_end_run {words : List String} {c : CommandLine}
    (hwords : CommandLine.parse words = .ok c) (colors : Bool) (t : FileTree) :
    (c.Analyzes → c.FiltersByUnknown →
        (∃ e, ((run c colors).run { files := t }).1 = .error e) ∧
          (program words colors t).exitCode = 1 ∧ (program words colors t).output.files = t) ∧
      (c.Analyzes → c.summary = false → ∀ word, c.GroupsByUnknown word →
        match c.survey t with
        | .error e =>
          ((run c colors).run { files := t }).1 = .error e ∧
          (program words colors t).output.files = t
        | .ok none =>
          ((run c colors).run { files := t }).1 = .ok false ∧
          (program words colors t).output.files = t
        | .ok (some v) =>
          ((run c colors).run { files := t }).1 = .error (.word (.grouping word)) ∧
            (program words colors t).output.files = c.filesAfterSaving t v.found) ∧
      (c.summary = true → run c colors = run { c with groupBy := none } colors) ∧
      (¬ c.Analyzes →
        ((run c colors).run { files := t }).1 = .ok false ∧
        (program words colors t).output.files = t) := by
  rw [program_exitCode hwords, program_files hwords]
  obtain ⟨o, hfiles, hrun⟩ := run_eq_conclude c colors t
  rw [hrun]
  refine ⟨?_, ?_, fun hsummary => run_of_summary hsummary colors, ?_⟩
  · intro hanalyzes hunknown
    obtain ⟨e, hsurvey⟩ := exists_survey_eq_error hanalyzes hunknown t
    rw [hsurvey]
    exact ⟨⟨e, rfl⟩, rfl, hfiles⟩
  · intro _ hsummary word hunknown
    cases c.survey t with
    | error e => exact ⟨rfl, hfiles⟩
    | ok survey =>
      cases survey with
      | none => exact ⟨rfl, hfiles⟩
      | some v =>
        dsimp only
        obtain ⟨o', hconclude, hsaved⟩ := conclude_of_groupsByUnknown hunknown hsummary colors v o
        rw [hconclude, hsaved, hfiles]
        exact ⟨rfl, rfl⟩
  · intro hother
    rw [survey_of_not_analyzes hother]
    exact ⟨rfl, hfiles⟩

/-! Two command lines for the project of `queueTree` that ask for a baseline: one with an unknown
rule, and one with an unknown grouping. -/

/-- The command line with an unknown rule. -/
def unknownRuleLine : CommandLine :=
  { rules := ["BC001", "nope"], format := .json, output := some ⟨"out.json"⟩
    generateBaseline := some ⟨"base.json"⟩ }

/-- The command line with an unknown grouping. -/
def unknownGroupingLine : CommandLine :=
  { groupBy := some "nope", generateBaseline := some ⟨"base.json"⟩ }

theorem filtersByUnknown_unknownRuleLine : unknownRuleLine.FiltersByUnknown :=
  .inl ⟨"nope", by decide, by decide⟩

theorem groupsByUnknown_unknownGroupingLine : unknownGroupingLine.GroupsByUnknown "nope" :=
  ⟨rfl, by decide⟩

theorem survey_unknownGroupingLine :
    unknownGroupingLine.survey (queueTree []) =
      .ok (some (unknownGroupingLine.surveyOf (queueTree []) {} .low [⟨"./Sync.java"⟩])) :=
  survey_queueTree ⟨rfl, rfl⟩ rfl rfl rfl

/-- Whatever was found, the baseline is a new file. -/
theorem isFile_filesAfterSaving (found : List Finding) :
    (unknownGroupingLine.filesAfterSaving (queueTree []) found).isFile ⟨"base.json"⟩ = true := by
  have hsaved : unknownGroupingLine.filesAfterSaving (queueTree []) found =
      queueTree [("base.json",
        .file (some (Baseline.ofFindings unknownGroupingLine.project found).written))] := rfl
  rw [hsaved]
  rfl

theorem unknown_words_end_run_unknownRuleLine :
    (program ["--rules", "BC001,nope", "--format", "json", "--output", "out.json",
      "--generate-baseline",
        "base.json"] false (queueTree [])).exitCode = 1 ∧
      (program ["--rules", "BC001,nope", "--format", "json", "--output", "out.json",
        "--generate-baseline", "base.json"] false (queueTree [])).output.files = queueTree [] ∧
      (program ["--group-by", "nope", "--generate-baseline", "base.json"] false
        (queueTree [])).output.files.isFile ⟨"base.json"⟩ = true := by
  have hrule :
      CommandLine.parse ["--rules", "BC001,nope", "--format", "json", "--output", "out.json",
      "--generate-baseline", "base.json"] = .ok unknownRuleLine := rfl
  have hgrouping : CommandLine.parse ["--group-by", "nope", "--generate-baseline", "base.json"] =
      .ok unknownGroupingLine := rfl
  obtain ⟨hfilter, -⟩ := unknown_words_end_run hrule false (queueTree [])
  obtain ⟨-, hgroup, -⟩ := unknown_words_end_run hgrouping false (queueTree [])
  obtain ⟨-, hexit, hfiles⟩ := hfilter ⟨rfl, rfl⟩ filtersByUnknown_unknownRuleLine
  have hlate := hgroup ⟨rfl, rfl⟩ rfl "nope" groupsByUnknown_unknownGroupingLine
  rw [survey_unknownGroupingLine] at hlate
  refine ⟨hexit, hfiles, ?_⟩
  rw [hlate.2]
  exact isFile_filesAfterSaving _

/-- **An unknown grouping does not keep a run from saving a baseline,** though the run ends with an
error. -/
theorem unknown_grouping_saves_baseline :
    CommandLine.parse ["--group-by", "nope", "--generate-baseline", "base.json"] =
      .ok unknownGroupingLine ∧ unknownGroupingLine.GroupsByUnknown "nope" ∧
      (queueTree []).isFile ⟨"base.json"⟩ = false ∧
      (program ["--group-by", "nope", "--generate-baseline", "base.json"] false
        (queueTree [])).exitCode = 1 ∧
      (program ["--group-by", "nope", "--generate-baseline", "base.json"] false
        (queueTree [])).output.files.isFile ⟨"base.json"⟩ = true := by
  have hwords : CommandLine.parse ["--group-by", "nope", "--generate-baseline", "base.json"] =
      .ok unknownGroupingLine := rfl
  obtain ⟨o, hfiles, hrun⟩ := run_eq_conclude unknownGroupingLine false (queueTree [])
  rw [survey_unknownGroupingLine] at hrun
  obtain ⟨o', hconclude, hsaved⟩ :=
    conclude_of_groupsByUnknown groupsByUnknown_unknownGroupingLine rfl false
    (unknownGroupingLine.surveyOf (queueTree []) {} .low [⟨"./Sync.java"⟩]) o
  dsimp only at hrun
  rw [hconclude] at hrun
  refine ⟨hwords, groupsByUnknown_unknownGroupingLine, rfl, ?_, ?_⟩
  · rw [program_exitCode hwords, hrun]
    rfl
  · rw [program_files hwords, hrun]
    dsimp only
    rw [hsaved, hfiles]
    exact isFile_filesAfterSaving _

end AdLint
