import AdLint.Proofs.RepeatedRun
import AdLint.Proofs.Suppression

/-!
# Printed documents

A run that is asked for a document prints it for another program to read. If there is something to
analyze, the output is that document and nothing else: it is read back as one value, its issues are
the findings that are left after all filters, in their order, and the exit code can be told from it.
The notices of a run go elsewhere.

If there is nothing to analyze, the run ends before its report. It then says so in words, or says
nothing, and prints no document.

## Main definitions

* `CommandLine.AsksForDocument`: a command line that asks for a document on the output
* `DataReport.issuesOf`, `DataReport.IsGrave`: what a reader of a document looks at
* `sureFindings`: the findings of all checks that pass the filters of the settings and the command
  line
* `CommandLine.filesAfterSaving`: the files after a baseline is saved
* `CommandLine.comparedBaseline?`, `leftBy`: the baseline that findings are compared with, and what
  it leaves

## Main results

* `findings_isStableSort`: the findings of a run are those that pass the filters, sorted
* `conclude_of_asksForDocument`: how a run ends that is asked for a document
* `json_run_prints_document`: what such a run prints, and its exit code
-/

namespace AdLint

/-! ## Reading a document -/

namespace Json

/-- The value of a key in an object. -/
def get? (key : String) : Json → Option Json
  | object entries => Baseline.value? entries key
  | _ => none

theorem readableEntries_of_forall {depth : Nat} {entries : List (String × Json)}
    (h : ∀ entry ∈ entries, entry.2.Readable depth) : ReadableEntries depth entries := by
  induction entries with
  | nil => trivial
  | cons entry entries ih =>
    exact ⟨h entry List.mem_cons_self, ih fun other hother =>
      h other (List.mem_cons_of_mem _ hother)⟩

end Json

namespace DataReport

/-- The issues that a document lists. -/
def issuesOf (document : Json) : List Json :=
  match document.get? "issues" with
  | some (.array items) => items
  | _ => []

/-- An issue is grave if it says so. -/
def IsGrave (item : Json) : Prop := item.get? "severity" = some (.text "error")

@[simp] theorem issuesOf_plain (found : List Finding) :
    issuesOf (plain found) = found.map issue := rfl

theorem isGrave_issue_iff (f : Finding) : IsGrave (issue f) ↔ f.severity = .error := by
  have hvalue : (issue f).get? "severity" = some (.text f.severity.label) := rfl
  rw [IsGrave, hvalue]
  cases f.severity <;> simp [Severity.label]

/-- A document has a grave issue exactly if one of its findings is grave. -/
theorem any_grave_iff (found : List Finding) :
    (found.any fun f => f.severity == .error) = true ↔
      ∃ item ∈ issuesOf (plain found), IsGrave item := by
  simp only [issuesOf_plain, List.mem_map, exists_exists_and_eq_and, isGrave_issue_iff,
    List.any_eq_true, beq_iff_eq]

theorem readable_ruleCounts (depth : Nat) (s : Statistics) :
    (ruleCounts s).Readable (depth + 1) := by
  refine ⟨Nat.succ_pos depth, Json.readableEntries_of_forall fun entry hentry => ?_⟩
  obtain ⟨counted, -, rfl⟩ := List.mem_map.mp hentry
  exact Json.readable_count depth counted.2

theorem readable_issue (depth : Nat) (f : Finding) : (issue f).Readable (depth + 1) :=
  ⟨Nat.succ_pos depth, trivial, trivial, trivial, trivial, trivial, trivial,
    Json.readable_count _ _, Json.readable_count _ _, trivial, trivial, trivial⟩

/-- A document can be read back. -/
theorem readable_plain (found : List Finding) : (plain found).Readable 127 := by
  refine ⟨by decide, trivial, Json.readable_count _ _, ⟨by decide, ?_⟩, ⟨by decide, ?_⟩, trivial⟩
  · exact ⟨Json.readable_count _ _, Json.readable_count _ _, Json.readable_count _ _,
      Json.readable_count _ _, readable_ruleCounts _ _, trivial⟩
  · refine Json.readableItems_of_forall fun item hitem => ?_
    obtain ⟨f, -, rfl⟩ := List.mem_map.mp hitem
    exact readable_issue _ f

/-- A document is read back from its line. -/
theorem parse?_plain (found : List Finding) :
    Json.parse? ((plain found).pretty ++ "\n") = some (plain found) :=
  Json.parse?_pretty_append (readable_plain found) (by simp [Json.AreBlanks])

end DataReport

/-! ## The findings that are left -/

/-- The findings of all checks that pass the filters: those of rules that run, that the source does
not suppress and that are sure enough, with the severities of the settings. -/
def sureFindings (s : Settings) (least : Confidence) (p : Project) : List Finding :=
  ((foundBy s p).filter fun f =>
    s.enables f.rule && !isSuppressed p f && decide (least.rank ≤ f.confidence.rank)).map
      (Finding.withSettings s)

/-- The findings of a run are those that pass the filters, sorted. -/
theorem findings_isStableSort (s : Settings) (least : Confidence) (p : Project) :
    IsStableSort Finding.compare (sureFindings s least p) (findings s least p) := by
  have hsorted := (analyze_isStableSort s p).filter fun f => decide (least.rank ≤ f.confidence.rank)
  have hkept : (keptFindings s p).filter (fun f => decide (least.rank ≤ f.confidence.rank)) =
      sureFindings s least p := by
    -- the settings change severities only, so they can be applied before or after
    simp only [keptFindings, sureFindings, List.filter_map, List.filter_filter]
    congr 1
    refine List.filter_congr fun f _ => ?_
    rw [Bool.and_comm]
    rfl
  rw [hkept] at hsorted
  exact hsorted

/-- The files after a run has saved a baseline of its findings, if it is asked to and can do so. -/
def CommandLine.filesAfterSaving (c : CommandLine) (t : FileTree) (found : List Finding) :
    FileTree :=
  match c.generateBaseline with
  | none => t
  | some path => ((Baseline.ofFindings c.project found).save t path).toOption.getD t

theorem files_saveBaseline_eq (c : CommandLine) (colors : Bool) (found : List Finding)
    (o : Output) :
    (saveBaseline c colors found o).files = c.filesAfterSaving o.files found := by
  rw [files_saveBaseline, CommandLine.filesAfterSaving]
  cases c.generateBaseline with
  | none => rfl
  | some path =>
    dsimp only
    cases (Baseline.ofFindings c.project found).save o.files path <;> rfl

/-- The baseline that a run compares its findings with, if it can be loaded. A run that saves a
baseline as well does so before. -/
def CommandLine.comparedBaseline? (c : CommandLine) (t : FileTree) (found : List Finding) :
    Option Baseline :=
  c.baseline.bind fun path => (Baseline.load (c.filesAfterSaving t found) path).toOption

/-- The findings that a baseline leaves; all of them if there is none. -/
def leftBy (base : Path) (b : Option Baseline) (found : List Finding) : List Finding :=
  match b with
  | none => found
  | some b => b.newOf base found

theorem fst_applyBaseline_eq_leftBy (c : CommandLine) (colors : Bool) (found : List Finding)
    (o : Output) :
    (applyBaseline c colors found (saveBaseline c colors found o)).1 =
      leftBy c.project (c.comparedBaseline? o.files found) found := by
  unfold CommandLine.comparedBaseline?
  rw [← files_saveBaseline_eq c colors]
  unfold applyBaseline
  cases c.baseline with
  | none => rfl
  | some path =>
    dsimp only [Option.bind_some]
    cases Baseline.load (saveBaseline c colors found o).files path <;> rfl

/-! ## What a run prints -/

/-- A command line that asks for a document on the output. -/
structure CommandLine.AsksForDocument (c : CommandLine) : Prop where
  format : c.format = .json
  summary : c.summary = false
  groupBy : c.groupBy = none
  output : c.output = none
  completions : c.completions = none
  listRules : c.listRules = false

namespace CommandLine.AsksForDocument

variable {c : CommandLine} (h : c.AsksForDocument)

include h

theorem reportFormat_eq : c.reportFormat = .ok .json := by
  simp [reportFormat, h.summary, h.groupBy, h.format]

theorem opening_eq (colors : Bool) (t : FileTree) :
    c.opening colors t =
      match c.survey t with
      | .ok none => c.emptyNotice colors
      | _ => "" := by
  have hcompletions : ¬c.completions.isSome := by simp [h.completions]
  have hlist : ¬c.listRules := by simp [h.listRules]
  exact (if_neg hcompletions).trans (if_neg hlist)

theorem analyzes : c.Analyzes := ⟨h.completions, h.listRules⟩

end CommandLine.AsksForDocument

theorem stdout_saveBaseline (c : CommandLine) (colors : Bool) (found : List Finding) (o : Output) :
    (saveBaseline c colors found o).stdout = o.stdout := by
  unfold saveBaseline
  cases c.generateBaseline with
  | none => rfl
  | some path =>
    dsimp only
    cases (Baseline.ofFindings c.project found).save o.files path <;> rfl

theorem stdout_applyBaseline (c : CommandLine) (colors : Bool) (found : List Finding) (o : Output) :
    (applyBaseline c colors found o).2.stdout = o.stdout := by
  unfold applyBaseline
  cases c.baseline with
  | none => rfl
  | some path =>
    dsimp only
    cases Baseline.load o.files path with
    | error e => rfl
    | ok b =>
      dsimp only
      split <;> rfl

/-- A text without a style is printed as it is. -/
theorem printed_text (colors : Bool) (text : String) :
    printed colors [[(text : Styled)]] = text ++ "\n" := by
  simp [printed, Line.printed, Styled.printed, Style.codes, String.join]

/-- A run that is asked for a document ends with printing it. -/
theorem conclude_of_asksForDocument {c : CommandLine} (h : c.AsksForDocument) (colors : Bool)
    (v : Survey)
    (o : Output) :
    ∃ o', c.conclude colors v o =
        (.ok ((leftBy c.project (c.comparedBaseline? o.files v.found) v.found).any
          fun f => f.severity == .error), o') ∧
      o'.stdout = o.stdout ++
        ((DataReport.plain
          (leftBy c.project (c.comparedBaseline? o.files v.found) v.found)).pretty ++ "\n") := by
  rw [← fst_applyBaseline_eq_leftBy c colors]
  generalize hreported : applyBaseline c colors v.found (saveBaseline c colors v.found o) = reported
  refine ⟨reported.2.print colors [[((DataReport.plain reported.1).pretty : Styled)]], ?_, ?_⟩
  · unfold CommandLine.conclude
    rw [h.reportFormat_eq, hreported]
    dsimp only [report, dataReport, CommandLine.reportOptions]
    rw [h.output]
    rfl
  · -- what is said about baselines goes to the notices
    dsimp only [Output.print]
    rw [printed_text, ← hreported, stdout_applyBaseline, stdout_saveBaseline]

/-- What is said if there is nothing to analyze is no document. -/
theorem parse?_emptyNotice (c : CommandLine) (colors : Bool) :
    Json.parse? (c.emptyNotice colors) = none := by
  unfold CommandLine.emptyNotice
  cases c.quiet <;> cases colors <;> rfl

/-- A program whose run ends without an error gives the output of the run. -/
theorem program_of_run {words : List String} {c : CommandLine}
    (hwords : CommandLine.parse words = .ok c)
    {colors grave : Bool} {t : FileTree} {o : Output}
    (hrun : (run c colors).run { files := t } = (.ok grave, o)) :
    program words colors t = { exitCode := if grave then 1 else 0, output := o } := by
  unfold program
  rw [hwords]
  dsimp only
  rw [hrun]

/-- **A run that is asked for a document prints it if there is something to analyze.** The whole
output is read back as one document, whose issues are the findings that are left after all filters,
in their order, and the exit code is 1 exactly if an issue is grave. If there is nothing to analyze,
the output is no document, and the exit code is 0. -/
theorem json_run_prints_document {words : List String} {c : CommandLine}
    (hwords : CommandLine.parse words = .ok c) (hasks : c.AsksForDocument) (colors : Bool)
    (t : FileTree)
    {grave : Bool} {o : Output} (hrun : (run c colors).run { files := t } = (.ok grave, o)) :
    ∃ s least files, c.settings t = .ok s ∧ Confidence.parse c.minConfidence = .ok least ∧
      discover t s c.project = .ok files ∧
      (files = [] →
        (program words colors t).output.stdout = c.emptyNotice colors ∧
          Json.parse? (program words colors t).output.stdout = none ∧
          (program words colors t).exitCode = 0) ∧
      (files ≠ [] →
        ∃ found document,
          IsStableSort Finding.compare (sureFindings s least (readProject c t files)) found ∧
            Json.parse? (program words colors t).output.stdout = some document ∧
            DataReport.issuesOf document =
              (leftBy c.project (c.comparedBaseline? t found) found).map DataReport.issue ∧
            ((program words colors t).exitCode = 1 ↔
              ∃ item ∈ DataReport.issuesOf document, DataReport.IsGrave item)) := by
  obtain ⟨o₁, hfiles₁, hprinted, hrun₁⟩ := run_eq_conclude_printed c colors t
  rw [hasks.opening_eq] at hprinted
  rw [program_of_run hwords hrun]
  rw [hrun₁] at hrun
  cases hsurvey : c.survey t with
  | error e =>
    rw [hsurvey] at hrun
    cases hrun
  | ok survey =>
    obtain ⟨s, least, files, hsettings, hleast, hdiscover, hfound⟩ :=
      (CommandLine.survey_eq_ok_iff hasks.analyzes).mp hsurvey
    refine ⟨s, least, files, hsettings, hleast, hdiscover, ?_, ?_⟩
    · rintro rfl
      rw [hsurvey, hfound] at hrun hprinted
      cases hrun
      dsimp only
      rw [hprinted]
      exact ⟨rfl, parse?_emptyNotice c colors, rfl⟩
    · intro hne
      rw [if_neg (by simpa using hne)] at hfound
      rw [hsurvey, hfound] at hrun hprinted
      obtain ⟨o₂, hconclude, hdocument⟩ :=
        conclude_of_asksForDocument hasks colors (c.surveyOf t s least files) o₁
      have hkept : (c.surveyOf t s least files).found = findings s least (readProject c t files) :=
        rfl
      rw [hfiles₁, hkept] at hconclude hdocument
      dsimp only at hrun hprinted
      rw [hconclude] at hrun
      cases hrun
      refine ⟨findings s least (readProject c t files), DataReport.plain _,
        findings_isStableSort s least _, ?_, DataReport.issuesOf_plain _, ?_⟩
      · dsimp only
        rw [hdocument, hprinted, String.empty_append]
        exact DataReport.parse?_plain _
      · rw [← DataReport.any_grave_iff]
        exact ite_eq_left_iff.trans (by simp)

/-! The command line that asks for a document and nothing else, for the project of `queueTree` and
for one without files. -/

/-- The command line that asks for a document. -/
def documentLine : CommandLine := { format := .json }

theorem asksForDocument_documentLine : documentLine.AsksForDocument :=
  ⟨rfl, rfl, rfl, rfl, rfl, rfl⟩

theorem parse_documentLine : CommandLine.parse ["--format", "json"] = .ok documentLine := rfl

theorem survey_documentLine :
    documentLine.survey (queueTree []) =
      .ok (some (documentLine.surveyOf (queueTree []) {} .low [⟨"./Sync.java"⟩])) :=
  survey_queueTree ⟨rfl, rfl⟩ rfl rfl rfl

theorem sureFindings_of_unannotated {p : Project}
    (h : (p.added.all fun d => d.annotations.isEmpty) = true) :
    sureFindings {} .low p = foundBy {} p := by
  have hkept := isSuppressed_of_unannotated fun d hd =>
    List.isEmpty_iff.mp (List.all_eq_true.mp h d hd)
  have henabled (rule : Rule) : Settings.enables {} rule = true := rfl
  have hsame : Finding.withSettings {} = id := rfl
  rw [sureFindings, hsame, List.map_id]
  refine List.filter_eq_self.mpr fun f _ => ?_
  simp [hkept, henabled, Confidence.rank]

theorem unannotated_queueTree :
    ((Project.ofFiles (queueTree []) [⟨"./Sync.java"⟩]).added.all fun d => d.annotations.isEmpty) =
      true := by
  decide +kernel

theorem sureFindings_queueTree :
    sureFindings {} .low (Project.ofFiles (queueTree []) [⟨"./Sync.java"⟩]) =
      foundBy {} (Project.ofFiles (queueTree []) [⟨"./Sync.java"⟩]) :=
  sureFindings_of_unannotated unannotated_queueTree

theorem severities_queueTree :
    (foundBy {} (Project.ofFiles (queueTree []) [⟨"./Sync.java"⟩])).map (fun f => f.severity) =
      [.error, .error] := by
  decide +kernel

theorem json_run_prints_document_queueTree :
    ∃ document, Json.parse? (program ["--format", "json"] true (queueTree [])).output.stdout =
      some document ∧ (DataReport.issuesOf document).length = 2 ∧
      (program ["--format", "json"] true (queueTree [])).exitCode = 1 := by
  obtain ⟨o₁, -, hrun⟩ := run_eq_conclude documentLine true (queueTree [])
  rw [survey_documentLine] at hrun
  obtain ⟨o, hconclude, -⟩ := conclude_of_asksForDocument asksForDocument_documentLine true
    (documentLine.surveyOf (queueTree []) {} .low [⟨"./Sync.java"⟩]) o₁
  obtain ⟨s, least, files, hsettings, hleast, hdiscover, -, hdocument⟩ :=
    json_run_prints_document parse_documentLine asksForDocument_documentLine true (queueTree [])
      (hrun.trans hconclude)
  have hsettings' : documentLine.settings (queueTree []) = .ok {} := rfl
  have hleast' : Confidence.parse documentLine.minConfidence = .ok .low := rfl
  cases hsettings'.symm.trans hsettings
  cases hleast'.symm.trans hleast
  cases discover_queueTree.symm.trans hdiscover
  obtain ⟨found, document, hsorted, hparse, hissues, hexit⟩ := hdocument (List.cons_ne_nil _ _)
  have hnone : documentLine.comparedBaseline? (queueTree []) found = none := rfl
  have hproject : readProject documentLine (queueTree []) [⟨"./Sync.java"⟩] =
      Project.ofFiles (queueTree []) [⟨"./Sync.java"⟩] := if_neg (by decide)
  -- the order of the two findings is left open: only how many there are and how grave matters here
  have hperm := hsorted.perm
  rw [hproject, sureFindings_queueTree] at hperm
  rw [hnone, leftBy] at hissues
  have hgrave : (found.map fun f => f.severity).Perm [.error, .error] := by
    rw [← severities_queueTree]
    exact hperm.map _
  refine ⟨document, hparse, ?_, hexit.mpr ?_⟩
  · rw [hissues]
    simpa using hgrave.length_eq
  · obtain ⟨f, hf, hsevere⟩ := List.mem_map.mp (hgrave.symm.subset List.mem_cons_self)
    rw [hissues]
    exact ⟨DataReport.issue f, List.mem_map_of_mem hf, (DataReport.isGrave_issue_iff f).mpr hsevere⟩

/-- **Without files no document is printed,** though the run ends without an error. -/
theorem empty_project_prints_no_document :
    documentLine.AsksForDocument ∧ CommandLine.parse ["--format", "json"] = .ok documentLine ∧
      (∃ o, (run documentLine false).run { files := { top := .directory [], here := [] } } =
        (.ok false, o)) ∧
      (program ["--format", "json"] false { top := .directory [], here := [] }).output.stdout =
        "No Kotlin, Java or manifest files found.\n" ∧
      Json.parse?
        (program ["--format", "json"] false { top := .directory [], here := [] }).output.stdout =
          none := by
  have hdiscover :
      discover { top := .directory [], here := [] } {} documentLine.project = .ok [] := by
    decide +kernel
  have hsurvey : documentLine.survey { top := .directory [], here := [] } = .ok none :=
    (CommandLine.survey_eq_ok_iff ⟨rfl, rfl⟩).mpr ⟨{}, .low, [], rfl, rfl, hdiscover, rfl⟩
  obtain ⟨o, -, hprinted, hrun⟩ :=
    run_eq_conclude_printed documentLine false { top := .directory [], here := [] }
  rw [asksForDocument_documentLine.opening_eq, hsurvey] at hprinted
  rw [hsurvey] at hrun
  dsimp only at hprinted hrun
  have hstdout :
      (program ["--format", "json"] false { top := .directory [], here := [] }).output.stdout =
      documentLine.emptyNotice false := by
    rw [program_of_run parse_documentLine hrun, ← hprinted]
  refine ⟨asksForDocument_documentLine, parse_documentLine, ⟨o, hrun⟩, ?_, ?_⟩
  · rw [hstdout]
    rfl
  · rw [hstdout]
    exact parse?_emptyNotice documentLine false

end AdLint
