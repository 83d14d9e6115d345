import AdLint.Proofs.FindingCounts
import AdLint.Proofs.PrintedDocument

/-!
# What other programs read in reports

A report in a data format is written for another program. Here are the readers such a program has:
they take the text of a report, read it as JSON and look up the keys they know. A text that is no
JSON, a key that is missing and a value of another kind are all refused.

Both formats list the findings in their order. What the reader of one format gets for a finding is
compared with what the reader of the other gets, key by key. In the interchange format a result
refers to its rule twice, by code and by place in a table; the table stands elsewhere in the
document.

## Main definitions

* `DataReport.Issue`, `DataReport.PlainReport`, `DataReport.readPlain?`: the plain list and its
  reader
* `DataReport.Result`, `DataReport.Interchange`, `DataReport.readInterchange?`: the interchange
  format and its reader
* `DataReport.Result.Agrees`: a result that says the same as an issue

## Main results

* `DataReport.readPlain?_pretty`, `DataReport.readInterchange?_pretty`: what is read in the two
  formats
* `DataReport.data_reports_decode`: both formats say the same about all findings
-/

namespace AdLint

/-! ## Readers of values -/

namespace Json

variable {α β γ : Type}

/-- The number that a value holds, written with digits alone. -/
def natural? : Json → Option Nat
  | number written =>
    if written.toList.all Char.isDigit then some (valueOf written.toList) else none
  | _ => none

/-- What is read in the items of an array. -/
def items? (item? : Json → Option α) : Json → Option (List α)
  | array items => items.mapM item?
  | _ => none

/-- What is read in the values of an object, with their keys. -/
def entries? (value? : Json → Option α) : Json → Option (List (String × α))
  | object entries => entries.mapM fun entry => (value? entry.2).map (entry.1, ·)
  | _ => none

/-- What is read at a key of an object. -/
def field? (key : String) (value? : Json → Option α) (j : Json) : Option α :=
  (j.get? key).bind value?

/-- A key is looked up entry by entry. -/
theorem get?_object_cons (key k : String) (value : Json) (entries : List (String × Json)) :
    get? key (object ((k, value) :: entries)) =
      if k == key then some value else get? key (object entries) := by
  rw [get?, Baseline.value?, List.find?_cons]
  cases k == key <;> rfl

theorem natural?_count (n : Nat) : natural? (count n) = some n := by
  have hread := Baseline.natBelow?_count (Nat.lt_succ_self n)
  simp only [count, Baseline.natBelow?, Option.ite_none_right_eq_some, Bool.and_eq_true] at hread
  obtain ⟨⟨hdigits, -⟩, hvalue⟩ := hread
  exact (if_pos hdigits).trans hvalue

/-- Values that are all read one by one are read as a list. -/
theorem mapM_map_of_forall {write : β → γ} {read : γ → Option α} {view : β → α}
    (h : ∀ x, read (write x) = some (view x)) (xs : List β) :
    (xs.map write).mapM read = some (xs.map view) := by
  have hread : read ∘ write = fun x => pure (view x) := funext h
  rw [List.mapM_map, hread, List.mapM_pure]
  rfl

end Json

/-! ## Codes of rules -/

namespace Rule

theorem nodup_codes : (all.map code).Nodup := by decide

theorem code_inj {r r' : Rule} : r.code = r'.code ↔ r = r' :=
  ⟨fun h => List.inj_on_of_nodup_map nodup_codes (mem_all r) (mem_all r') h, congrArg code⟩

/-- A rule stands at its place in the list of rules. -/
theorem code_at_rank (r : Rule) : (all.map code)[r.rank]? = some r.code := by
  rw [List.getElem?_map, rank, List.getElem?_idxOf (mem_all r)]
  rfl

end Rule

namespace DataReport

open Json Baseline

/-! ## The plain list -/

/-- An issue of the plain list. -/
structure Issue where
  code : String
  name : String
  category : String
  severity : Severity
  confidence : Confidence
  file : String
  line : Nat
  column : Nat
  subject : String
  message : String
  deriving DecidableEq, Repr

/-- What is read in the plain list. -/
structure PlainReport where
  total : Nat
  errors : Nat
  warnings : Nat
  infos : Nat
  byRule : List (String × Nat)
  issues : List Issue
  deriving DecidableEq, Repr

/-- The severity that a value holds. -/
def severity? (j : Json) : Option Severity := (text? j).bind Severity.ofLabel?

/-- The confidence that a value holds. -/
def confidence? (j : Json) : Option Confidence := (text? j).bind Confidence.parse?

/-- The issue that a value holds. -/
def issue? (j : Json) : Option Issue := do
  some
    { code := ← j.field? "code" text?
      name := ← j.field? "name" text?
      category := ← j.field? "category" text?
      severity := ← j.field? "severity" severity?
      confidence := ← j.field? "confidence" confidence?
      file := ← j.field? "file" text?
      line := ← j.field? "line" natural?
      column := ← j.field? "column" natural?
      subject := ← j.field? "subject" text?
      message := ← j.field? "message" text? }

/-- The plain list that a value holds. -/
def plain? (j : Json) : Option PlainReport := do
  let summary ← j.get? "summary"
  some
    { total := ← j.field? "total_issues" natural?
      errors := ← summary.field? "errors" natural?
      warnings := ← summary.field? "warnings" natural?
      infos := ← summary.field? "infos" natural?
      byRule := ← summary.field? "by_rule" (entries? natural?)
      issues := ← j.field? "issues" (items? issue?) }

/-- The plain list that a text writes. -/
def readPlain? (text : String) : Option PlainReport := (Json.parse? text).bind plain?

/-- The issue of a finding. -/
def Issue.ofFinding (f : Finding) : Issue where
  code := f.rule.code
  name := f.rule.name
  category := f.rule.category.title
  severity := f.severity
  confidence := f.confidence
  file := f.location.file.text
  line := f.location.line
  column := f.location.column
  subject := f.subject
  message := f.message

theorem severity?_label (s : Severity) : severity? (.text s.label) = some s := by cases s <;> rfl

theorem confidence?_label (c : Confidence) : confidence? (.text c.label) = some c := by
  cases c <;> rfl

theorem issue?_issue (f : Finding) : issue? (issue f) = some (Issue.ofFinding f) := by
  simp [issue?, issue, field?, get?_object_cons, Baseline.text?, severity?_label, confidence?_label,
    natural?_count, Issue.ofFinding]

/-- The counts of the rules in the order of their codes. -/
def countsByCode (s : Statistics) : List (String × Nat) :=
  (s.byRule.map fun e => (e.1.code, e.2)).mergeSort fun a b => decide (a.1 ≤ b.1)

theorem entries?_ruleCounts (s : Statistics) :
    entries? natural? (ruleCounts s) = some (countsByCode s) := by
  have hread : entries? natural? (ruleCounts s) =
      ((countsByCode s).map fun e => (e.1, Json.count e.2)).mapM fun entry =>
        (natural? entry.2).map (entry.1, ·) := rfl
  rw [hread, mapM_map_of_forall fun e => by rw [natural?_count]; rfl]
  exact congrArg some (List.map_id _)

theorem perm_countsByCode (s : Statistics) :
    (countsByCode s).Perm (s.byRule.map fun e => (e.1.code, e.2)) := List.mergeSort_perm _ _

theorem sum_countsByCode (s : Statistics) : ((countsByCode s).map Prod.snd).sum = s.total := by
  rw [((perm_countsByCode s).map Prod.snd).sum_nat, List.map_map]
  exact s.sum_byRule

/-- No code is counted twice. -/
theorem nodup_countsByCode (s : Statistics) : ((countsByCode s).map Prod.fst).Nodup := by
  have hcodes :
      ((Rule.all.map fun r => (r, s.countOf fun f => f.rule == r)).map fun e => e.1.code) =
      Rule.all.map Rule.code := List.map_map
  have hsub : (s.byRule.map fun e => e.1.code).Sublist (Rule.all.map Rule.code) := by
    rw [← hcodes]
    exact List.filter_sublist.map _
  rw [((perm_countsByCode s).map Prod.fst).nodup_iff, List.map_map]
  exact Rule.nodup_codes.sublist hsub

/-- A code is counted with the number of issues that have it. -/
theorem count_of_mem_countsByCode {findings : List Finding} {e : String × Nat}
    (he : e ∈ countsByCode ⟨findings⟩) :
    e.2 = (findings.map Issue.ofFinding).countP fun i => i.code == e.1 := by
  obtain ⟨counted, hcounted, rfl⟩ := List.mem_map.mp ((perm_countsByCode _).mem_iff.mp he)
  obtain ⟨rule, -, rfl⟩ := List.mem_map.mp (List.mem_filter.mp hcounted).1
  rw [List.countP_map]
  refine List.countP_congr fun f _ => ?_
  rw [Function.comp_apply, beq_iff_eq, beq_iff_eq]
  exact Rule.code_inj.symm

/-- What is read in the plain list. -/
theorem readPlain?_pretty (findings : List Finding) :
    readPlain? (plain findings).pretty =
      some
        { total := findings.length
          errors := Statistics.ofSeverity ⟨findings⟩ .error
          warnings := Statistics.ofSeverity ⟨findings⟩ .warning
          infos := Statistics.ofSeverity ⟨findings⟩ .info
          byRule := countsByCode ⟨findings⟩
          issues := findings.map Issue.ofFinding } := by
  have hissues :
      items? issue? (.array (findings.map issue)) = some (findings.map Issue.ofFinding) :=
    mapM_map_of_forall issue?_issue findings
  rw [readPlain?, parse?_pretty (readable_plain findings), Option.bind_some]
  simp [plain?, plain, field?, get?_object_cons, natural?_count, entries?_ruleCounts, hissues,
    Statistics.total]

/-! ## The interchange format -/

/-- A result of the interchange format. -/
structure Result where
  ruleId : String
  ruleIndex : Nat
  level : String
  message : String
  confidence : Confidence
  subject : String
  uri : String
  line : Nat
  column : Nat
  deriving DecidableEq, Repr

/-- What is read in the interchange format. -/
structure Interchange where
  /-- The codes of the rules, by their places. -/
  rules : List String
  results : List Result
  deriving DecidableEq, Repr

/-- The only item of a list. -/
def only? {α : Type} : List α → Option α
  | [x] => some x
  | _ => none

/-- The result that a value holds. It stands at one place. -/
def result? (j : Json) : Option Result := do
  let locations ← j.field? "locations" (items? (get? "physicalLocation"))
  let place ← only? locations
  let region ← place.get? "region"
  let properties ← j.get? "properties"
  some
    { ruleId := ← j.field? "ruleId" text?
      ruleIndex := ← j.field? "ruleIndex" natural?
      level := ← j.field? "level" text?
      message := ← j.field? "message" (field? "text" text?)
      confidence := ← properties.field? "confidence" confidence?
      subject := ← properties.field? "subject" text?
      uri := ← place.field? "artifactLocation" (field? "uri" text?)
      line := ← region.field? "startLine" natural?
      column := ← region.field? "startColumn" natural? }

/-- The run that a value holds. -/
def run? (j : Json) : Option Interchange := do
  let driver ← j.field? "tool" (get? "driver")
  some
    { rules := ← driver.field? "rules" (items? (field? "id" text?))
      results := ← j.field? "results" (items? result?) }

/-- The only run that a text in the interchange format writes. -/
def readInterchange? (text : String) : Option Interchange := do
  let document ← Json.parse? text
  let runs ← document.field? "runs" (items? run?)
  only? runs

/-- The result of a finding. -/
def Result.ofFinding (f : Finding) : Result where
  ruleId := f.rule.code
  ruleIndex := f.rule.rank
  level := DataReport.level f.severity
  message := f.message
  confidence := f.confidence
  subject := f.subject
  uri := Text.replaceChar '\\' '/' f.location.file.text
  line := f.location.line
  column := f.location.column

theorem result?_result (f : Finding) : result? (result f) = some (Result.ofFinding f) := by
  have hplace (place : Json) :
      items? (get? "physicalLocation") (.array [.object [("physicalLocation", place)]]) =
        some [place] := rfl
  simp [result?, result, textObject, only?, field?, get?_object_cons, hplace, Baseline.text?,
    confidence?_label, natural?_count, Result.ofFinding]

/-- The run of a document in the interchange format. -/
def runObject (findings : List Finding) : Json :=
  .object
    [ ("results", .array (findings.map result)),
      ("tool",
        .object
          [ ("driver",
              .object
                [ ("name", .text programName), ("rules", .array (Rule.all.map ruleObject)),
                  ("version", .text programVersion) ]) ]) ]

theorem readable_result (depth : Nat) (f : Finding) : (result f).Readable (depth + 5) := by
  have hpos : ∀ n, 0 < n + 1 := Nat.succ_pos
  exact ⟨hpos _, trivial,
    ⟨hpos _, ⟨hpos _, ⟨hpos _, ⟨hpos _, trivial, trivial⟩,
      ⟨hpos _, readable_count _ _, readable_count _ _, trivial⟩, trivial⟩, trivial⟩, trivial⟩,
    ⟨hpos _, trivial, trivial⟩, ⟨hpos _, trivial, trivial, trivial⟩, trivial,
    readable_count _ _, trivial⟩

theorem readable_ruleObject (depth : Nat) (r : Rule) : (ruleObject r).Readable (depth + 2) := by
  have hpos : ∀ n, 0 < n + 1 := Nat.succ_pos
  exact ⟨hpos _, ⟨hpos _, trivial, trivial⟩, ⟨hpos _, trivial, trivial⟩, trivial, trivial,
    ⟨hpos _, trivial, trivial⟩, ⟨hpos _, trivial, trivial⟩, trivial⟩

theorem readable_runObject (depth : Nat) (findings : List Finding) :
    (runObject findings).Readable (depth + 7) := by
  have hresults : ReadableItems (depth + 5) (findings.map result) := by
    refine readableItems_of_forall fun item hitem => ?_
    obtain ⟨f, -, rfl⟩ := List.mem_map.mp hitem
    exact readable_result depth f
  have hrules : ReadableItems (depth + 3) (Rule.all.map ruleObject) := by
    refine readableItems_of_forall fun item hitem => ?_
    obtain ⟨r, -, rfl⟩ := List.mem_map.mp hitem
    exact readable_ruleObject (depth + 1) r
  have hpos : ∀ n, 0 < n + 1 := Nat.succ_pos
  exact ⟨hpos _, ⟨hpos _, hresults⟩,
    ⟨hpos _, ⟨hpos _, trivial, ⟨hpos _, hrules⟩, trivial, trivial⟩, trivial⟩, trivial⟩

/-- A document in the interchange format can be read back. -/
theorem readable_interchange (findings : List Finding) : (interchange findings).Readable 127 := by
  have hread : ∀ depth, (interchange findings).Readable (depth + 9) := fun depth =>
    ⟨Nat.succ_pos _, trivial, ⟨Nat.succ_pos _, readable_runObject depth findings, trivial⟩,
      trivial, trivial⟩
  exact hread 118

theorem run?_runObject (findings : List Finding) :
    run? (runObject findings) =
      some { rules := Rule.all.map Rule.code, results := findings.map Result.ofFinding } := by
  have hid (r : Rule) : field? "id" text? (ruleObject r) = some r.code := rfl
  have hread : run? (runObject findings) =
      ((Rule.all.map ruleObject).mapM (field? "id" text?)).bind fun rules =>
        ((findings.map result).mapM result?).bind fun results => some { rules, results } := rfl
  rw [hread, mapM_map_of_forall hid, mapM_map_of_forall result?_result]
  rfl

/-- What is read in the interchange format. -/
theorem readInterchange?_pretty (findings : List Finding) :
    readInterchange? (interchange findings).pretty =
      some { rules := Rule.all.map Rule.code, results := findings.map Result.ofFinding } := by
  have hruns :
      (interchange findings).field? "runs" (items? run?) = [runObject findings].mapM run? := rfl
  rw [readInterchange?, parse?_pretty (readable_interchange findings), Option.bind_eq_bind,
    Option.bind_some, hruns, List.mapM_cons, run?_runObject]
  rfl

/-! ## Both formats -/

/-- A result that **says the same** as an issue. Its file is written with forward slashes. -/
structure Result.Agrees (r : Result) (i : Issue) : Prop where
  ruleId : r.ruleId = i.code
  subject : r.subject = i.subject
  message : r.message = i.message
  level : r.level = DataReport.level i.severity
  confidence : r.confidence = i.confidence
  line : r.line = i.line
  column : r.column = i.column
  uri : r.uri = Text.replaceChar '\\' '/' i.file

theorem agrees_ofFinding (f : Finding) : (Result.ofFinding f).Agrees (Issue.ofFinding f) :=
  ⟨rfl, rfl, rfl, rfl, rfl, rfl, rfl, rfl⟩

/-- **Both data formats say the same about all findings.** Their texts are read back, whatever the
texts of the findings are. The plain list has an issue for each finding, in order, and its counts
agree with the number of issues. The interchange format has a result for each issue that says the
same, and the table of rules has the code of each result at its place. -/
theorem data_reports_decode (findings : List Finding) :
    ∃ report interchanged,
      readPlain? (plain findings).pretty = some report ∧
        readInterchange? (interchange findings).pretty = some interchanged ∧
        report.issues = findings.map Issue.ofFinding ∧
        report.total = report.issues.length ∧
        report.errors + report.warnings + report.infos = report.issues.length ∧
        (report.byRule.map Prod.snd).sum = report.issues.length ∧
        (report.byRule.map Prod.fst).Nodup ∧
        (∀ e ∈ report.byRule, e.2 = report.issues.countP fun i => i.code == e.1) ∧
        List.Forall₂ Result.Agrees interchanged.results report.issues ∧
        ∀ r ∈ interchanged.results, interchanged.rules[r.ruleIndex]? = some r.ruleId := by
  refine ⟨_, _, readPlain?_pretty findings, readInterchange?_pretty findings, rfl, ?_, ?_, ?_,
    nodup_countsByCode _, fun e he => count_of_mem_countsByCode he, ?_, ?_⟩
  · exact (List.length_map _).symm
  · rw [List.length_map]
    exact Statistics.sum_severities ⟨findings⟩
  · rw [List.length_map]
    exact sum_countsByCode ⟨findings⟩
  · rw [List.forall₂_map_left_iff, List.forall₂_map_right_iff]
    exact List.forall₂_same.mpr fun f _ => agrees_ofFinding f
  · intro r hr
    obtain ⟨f, -, rfl⟩ := List.mem_map.mp hr
    exact Rule.code_at_rank f.rule

end DataReport

end AdLint
