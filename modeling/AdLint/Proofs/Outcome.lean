import AdLint.Program
import AdLint.Proofs.FileShape

/-!
# Outcomes of runs

A run is a chain of steps that pass on the output and may end it with an error. Here the chain is
taken apart: each kind of step is run once and for all, and the outcome of a run is read off what it
finds, reports and delivers. The text of a report does not matter for whether it can be delivered,
so the outcome depends on the reported findings only through the question whether one of them is
grave.

## Main definitions

* `CommandLine.survey`: what a run comes to before it writes anything
* `CommandLine.Analyzes`: a command line that asks for an analysis
* `CommandLine.opening`: what it has printed by then
* `CommandLine.conclude`: how a run goes on from there
* `reportedBy`: the findings that a run reports
* `outcomeOf`: the outcome of a run whose files are known
* `exitCode`: the exit code that belongs to an outcome

## Main results

* `run_eq_conclude_printed`, `run_eq_conclude`: a run is a survey with its conclusion
* `runWith_outcome`: the outcome of a run
* `outcomeOf_eq_ok_false_iff`: when a run ends well
* `isOk_deliver_report`: when a report can be delivered does not depend on its findings
* `program_exitCode`: the exit code of the program
-/

namespace AdLint

/-! ## Steps of a run -/

namespace Run

variable {α β ε : Type} (o : Output)

theorem run_bind (x : Run α) (f : α → Run β) :
    (x >>= f).run o =
      match x.run o with
      | (.ok a, o') => (f a).run o'
      | (.error e, o') => (.error e, o') := by
  have hbind : (x >>= f).run o = ExceptT.bindCont f (x.run o).1 (x.run o).2 := rfl
  rw [hbind]
  rcases x.run o with ⟨_ | a, o'⟩ <;> rfl

theorem run_bind_of_ok {x : Run α} {a : α} {o o' : Output} (h : x.run o = (.ok a, o'))
    (f : α → Run β) : (x >>= f).run o = (f a).run o' := by
  rw [run_bind, h]

theorem run_get_bind (f : Output → Run β) : (get >>= f : Run β).run o = (f o).run o :=
  run_bind_of_ok (x := get) rfl f

theorem run_modify_bind (g : Output → Output) (f : PUnit → Run β) :
    (modify g >>= f : Run β).run o = (f ⟨⟩).run (g o) :=
  run_bind_of_ok (x := modify g) rfl f

theorem run_modifyGet_bind (g : Output → α × Output) (f : α → Run β) :
    (modifyGet g >>= f : Run β).run o = (f (g o).1).run (g o).2 :=
  run_bind_of_ok (x := modifyGet g) rfl f

theorem run_attempt_bind (error : ε → RunError) (r : Except ε α) (f : α → Run β) :
    (attempt error r >>= f).run o =
      match r with
      | .ok a => (f a).run o
      | .error e => (.error (error e), o) := by
  cases r with
  | ok a => exact run_bind_of_ok (x := attempt error (.ok a)) rfl f
  | error e =>
    rw [run_bind]
    rfl

end Run

/-! ## Survey and conclusion

A run first reads: it looks for its settings, its files and what they declare, and analyzes that.
Then it acts: it saves a baseline, compares with another one and delivers a report. The first part
changes no file, and the second one takes nothing else from it than what was found. -/

/-- What a run has found before it writes anything. -/
structure Survey where
  found : List Finding
  /-- How many files were read. -/
  files : Nat
  /-- How many declarations are in them. -/
  declarations : Nat

namespace CommandLine

/-- The survey of files that were found. -/
def surveyOf (c : CommandLine) (t : FileTree) (s : Settings) (least : Confidence)
    (files : List Path) :
    Survey :=
  let p := readProject c t files
  { found := findings s least p, files := files.length, declarations := p.declarations.length }

/-- What a run comes to before it writes anything; `none` if there is nothing to analyze. -/
def survey (c : CommandLine) (t : FileTree) : Except RunError (Option Survey) :=
  if c.completions.isSome || c.listRules then .ok none
  else
    match c.settings t with
    | .error e => .error (.settings e)
    | .ok s =>
      match Confidence.parse c.minConfidence with
      | .error e => .error (.word e)
      | .ok least =>
        match discover t s c.project with
        | .error e => .error (.discovery e)
        | .ok files => .ok (if files.isEmpty then none else some (c.surveyOf t s least files))

/-- A command line that asks for an analysis, and not for something that is printed without one. -/
def Analyzes (c : CommandLine) : Prop := c.completions = none ∧ c.listRules = false

/-- What a survey that succeeds has read on the way. -/
theorem survey_eq_ok_iff {c : CommandLine} (h : c.Analyzes) {t : FileTree} {found : Option Survey} :
    c.survey t = .ok found ↔
      ∃ s least files, c.settings t = .ok s ∧ Confidence.parse c.minConfidence = .ok least ∧
        discover t s c.project = .ok files ∧
        found = if files.isEmpty then none else some (c.surveyOf t s least files) := by
  unfold survey
  rw [h.1, h.2, if_neg (by decide)]
  cases c.settings t with
  | error e => simp
  | ok s =>
    cases Confidence.parse c.minConfidence with
    | error e => simp
    | ok least =>
      dsimp only
      cases hfiles : discover t s c.project with
      | error e => simp [hfiles]
      | ok files =>
        constructor
        · intro hfound
          exact ⟨s, least, files, rfl, rfl, hfiles, (Except.ok.inj hfound).symm⟩
        · rintro ⟨_, _, _, hs, hleast, hdiscover, rfl⟩
          cases hs
          cases hleast
          cases hfiles.symm.trans hdiscover
          rfl

/-- How a run goes on with what it has found: it saves a baseline, compares with one, and
reports. -/
def conclude (c : CommandLine) (colors : Bool) (v : Survey) (o : Output) :
    Except RunError Bool × Output :=
  let reported := applyBaseline c colors v.found (saveBaseline c colors v.found o)
  match c.reportFormat with
  | .error e => (.error (.word e), reported.2)
  | .ok format =>
    match (report (c.reportOptions v.files v.declarations) format reported.1).deliver
      reported.2 colors with
    | .error e => (.error (.report e), reported.2)
    | .ok o => (.ok (reported.1.any fun f => f.severity == .error), o)

/-- The findings that a run comes to, before it compares them with a baseline. -/
def found (c : CommandLine) (t : FileTree) : List Finding :=
  match c.survey t with
  | .ok (some v) => v.found
  | _ => []

/-- The findings that a run reports. -/
def reported (c : CommandLine) (colors : Bool) (t : FileTree) : List Finding :=
  match c.survey t with
  | .ok (some v) =>
    (applyBaseline c colors v.found (saveBaseline c colors v.found { files := t })).1
  | _ => []

end CommandLine

/-- The steps of a run once its files are known. -/
def reportSteps (c : CommandLine) (colors : Bool) (s : Settings) (least : Confidence)
    (files : List Path) : Run Bool := do
  let project := readProject c (← get).files files
  let found := findings s least project
  modify (saveBaseline c colors found)
  let reported ← modifyGet (applyBaseline c colors found)
  let format ← Run.attempt .word c.reportFormat
  let r := report (c.reportOptions files.length project.declarations.length) format reported
  set (← Run.attempt .report (r.deliver (← get) colors))
  return reported.any fun f => f.severity == .error

theorem run_reportSteps (c : CommandLine) (colors : Bool) (s : Settings) (least : Confidence)
    (files : List Path) (o : Output) :
    (reportSteps c colors s least files).run o =
      c.conclude colors (c.surveyOf o.files s least files) o := by
  unfold reportSteps CommandLine.conclude CommandLine.surveyOf
  rw [Run.run_get_bind, Run.run_modify_bind, Run.run_modifyGet_bind, Run.run_attempt_bind]
  cases c.reportFormat with
  | error e => rfl
  | ok format =>
    dsimp only
    rw [Run.run_get_bind, Run.run_attempt_bind]
    generalize Report.deliver _ colors _ = delivered
    cases delivered <;> rfl

/-- What a run prints if there is nothing to analyze. -/
def CommandLine.emptyNotice (c : CommandLine) (colors : Bool) : String :=
  if c.quiet then ""
  else printed colors [[Styled.colored .yellow "No Kotlin, Java or manifest files found."]]

/-- A run with settings, and what it has printed before its conclusion. -/
theorem runWith_eq_printed (c : CommandLine) (colors : Bool) (s : Settings) (o : Output) :
    ∃ o', o'.files = o.files ∧
      o'.stdout = o.stdout ++
        (match Confidence.parse c.minConfidence with
        | .error _ => ""
        | .ok _ =>
          match discover o.files s c.project with
          | .error _ => ""
          | .ok files => if files.isEmpty then c.emptyNotice colors else "") ∧
      (runWith c colors s).run o =
        match Confidence.parse c.minConfidence with
        | .error e => (.error (.word e), o')
        | .ok least =>
          match discover o.files s c.project with
          | .error e => (.error (.discovery e), o')
          | .ok files =>
            if files.isEmpty then (.ok false, o')
            else c.conclude colors (c.surveyOf o.files s least files) o' := by
  have hsilent : o.stdout = o.stdout ++ "" := by simp
  unfold runWith CommandLine.emptyNotice
  rw [Run.run_attempt_bind]
  cases Confidence.parse c.minConfidence with
  | error e => exact ⟨o, rfl, hsilent, rfl⟩
  | ok least =>
    dsimp only
    rw [Run.run_get_bind, Run.run_attempt_bind]
    cases discover o.files s c.project with
    | error e => exact ⟨o, rfl, hsilent, rfl⟩
    | ok files =>
      dsimp only
      by_cases hempty : files.isEmpty = true
      · simp only [if_pos hempty]
        split
        · exact ⟨o, rfl, hsilent, rfl⟩
        · refine ⟨_, ?_, ?_, rfl⟩
          · rfl
          · rfl
      · simp only [if_neg hempty]
        -- with the notice or without it, the same steps follow
        split
        · rw [Run.run_modify_bind]
          refine ⟨_, ?_, ?_, run_reportSteps c colors s least files _⟩
          · rfl
          · exact hsilent
        · exact ⟨o, rfl, hsilent, run_reportSteps c colors s least files o⟩

theorem runWith_eq (c : CommandLine) (colors : Bool) (s : Settings) (o : Output) :
    ∃ o', o'.files = o.files ∧
      (runWith c colors s).run o =
        match Confidence.parse c.minConfidence with
        | .error e => (.error (.word e), o')
        | .ok least =>
          match discover o.files s c.project with
          | .error e => (.error (.discovery e), o')
          | .ok files =>
            if files.isEmpty then (.ok false, o')
            else c.conclude colors (c.surveyOf o.files s least files) o' := by
  obtain ⟨o', hfiles, -, hrun⟩ := runWith_eq_printed c colors s o
  exact ⟨o', hfiles, hrun⟩

/-- What a run prints before its conclusion: the rules if they are asked for, or that there is
nothing to analyze. -/
def CommandLine.opening (c : CommandLine) (colors : Bool) (t : FileTree) : String :=
  if c.completions.isSome then ""
  else if c.listRules then printed colors ruleList
  else
    match c.survey t with
    | .ok none => c.emptyNotice colors
    | _ => ""

/-- **A run is a survey with its conclusion.** Before the conclusion it prints its opening, and
notices. -/
theorem run_eq_conclude_printed (c : CommandLine) (colors : Bool) (t : FileTree) :
    ∃ o, o.files = t ∧ o.stdout = c.opening colors t ∧
      (run c colors).run { files := t } =
        match c.survey t with
        | .error e => (.error e, o)
        | .ok none => (.ok false, o)
        | .ok (some v) => c.conclude colors v o := by
  unfold run CommandLine.opening CommandLine.survey
  by_cases hcompletions : c.completions.isSome = true
  · simp only [hcompletions, Bool.true_or, if_true]
    exact ⟨_, rfl, rfl, rfl⟩
  · rw [if_neg hcompletions, if_neg hcompletions, Bool.eq_false_iff.mpr hcompletions, Bool.false_or]
    by_cases hlist : c.listRules = true
    · simp only [if_pos hlist]
      refine ⟨_, ?_, ?_, rfl⟩
      · rfl
      · exact String.empty_append
    · simp only [if_neg hlist]
      rw [Run.run_get_bind, Run.run_attempt_bind]
      cases c.settings t with
      | error e => exact ⟨_, rfl, rfl, rfl⟩
      | ok s =>
        obtain ⟨o, hfiles, hprinted, hrun⟩ := runWith_eq_printed c colors s { files := t }
        refine ⟨o, hfiles, ?_⟩
        dsimp only
        rw [hprinted, String.empty_append, hrun]
        cases Confidence.parse c.minConfidence with
        | error e => exact ⟨rfl, rfl⟩
        | ok least =>
          dsimp only
          cases discover t s c.project with
          | error e => exact ⟨rfl, rfl⟩
          | ok files =>
            dsimp only
            by_cases hempty : files.isEmpty = true
            · simp only [if_pos hempty, and_self]
            · simp only [if_neg hempty, and_self]

theorem run_eq_conclude (c : CommandLine) (colors : Bool) (t : FileTree) :
    ∃ o, o.files = t ∧
      (run c colors).run { files := t } =
        match c.survey t with
        | .error e => (.error e, o)
        | .ok none => (.ok false, o)
        | .ok (some v) => c.conclude colors v o := by
  obtain ⟨o, hfiles, -, hrun⟩ := run_eq_conclude_printed c colors t
  exact ⟨o, hfiles, hrun⟩

/-! ## The outcome of a run -/

/-- The findings that a run reports about a project: those that are sure enough and that the
baseline does not cover. If the run saves a baseline too, it does so before. -/
def reportedBy (c : CommandLine) (colors : Bool) (s : Settings) (least : Confidence) (p : Project)
    (o : Output) : List Finding :=
  (applyBaseline c colors (findings s least p) (saveBaseline c colors (findings s least p) o)).1

/-- The output of a run before its report. -/
def beforeReport (c : CommandLine) (colors : Bool) (s : Settings) (least : Confidence) (p : Project)
    (o : Output) : Output :=
  (applyBaseline c colors (findings s least p) (saveBaseline c colors (findings s least p) o)).2

/-- The outcome of a run whose files are known. -/
def outcomeOf (c : CommandLine) (colors : Bool) (s : Settings) (least : Confidence)
    (files : List Path) (o : Output) : Except RunError Bool :=
  let p := readProject c o.files files
  let reported := reportedBy c colors s least p o
  match c.reportFormat with
  | .error e => .error (.word e)
  | .ok format =>
    let r := report (c.reportOptions files.length p.declarations.length) format reported
    match r.deliver (beforeReport c colors s least p o) colors with
    | .error e => .error (.report e)
    | .ok _ => .ok (reported.any fun f => f.severity == .error)

theorem fst_conclude (c : CommandLine) (colors : Bool) (s : Settings) (least : Confidence)
    (files : List Path) (o : Output) :
    (c.conclude colors (c.surveyOf o.files s least files) o).1 =
      outcomeOf c colors s least files o := by
  unfold CommandLine.conclude CommandLine.surveyOf outcomeOf reportedBy beforeReport
  cases c.reportFormat with
  | error e => rfl
  | ok format =>
    dsimp only
    generalize Report.deliver _ colors _ = delivered
    cases delivered <;> rfl

/-- **The outcome of a run.** The notice that a parallel run gives at its start leaves the files
alone. -/
theorem runWith_outcome (c : CommandLine) (colors : Bool) (s : Settings) (o : Output) :
    ∃ o', o'.files = o.files ∧
      ((runWith c colors s).run o).1 =
        match Confidence.parse c.minConfidence with
        | .error e => .error (.word e)
        | .ok least =>
          match discover o.files s c.project with
          | .error e => .error (.discovery e)
          | .ok files =>
            if files.isEmpty then .ok false else outcomeOf c colors s least files o' := by
  obtain ⟨o', hfiles, hrun⟩ := runWith_eq c colors s o
  refine ⟨o', hfiles, ?_⟩
  rw [hrun]
  cases Confidence.parse c.minConfidence with
  | error e => rfl
  | ok least =>
    dsimp only
    cases discover o.files s c.project with
    | error e => rfl
    | ok files =>
      dsimp only
      split
      · rfl
      · rw [← hfiles]
        exact fst_conclude c colors s least files o'

/-- A run whose files are known ends well if its report can be delivered and has no grave
finding. -/
theorem outcomeOf_eq_ok_false_iff {c : CommandLine} {colors : Bool} {s : Settings}
    {least : Confidence} {files : List Path} {o : Output} :
    outcomeOf c colors s least files o = .ok false ↔
      ∃ format, c.reportFormat = .ok format ∧
        ((report (c.reportOptions files.length (readProject c o.files files).declarations.length)
            format (reportedBy c colors s least (readProject c o.files files) o)).deliver
          (beforeReport c colors s least (readProject c o.files files) o) colors).isOk = true ∧
        (reportedBy c colors s least (readProject c o.files files) o).any
          (fun f => f.severity == .error) = false := by
  unfold outcomeOf
  cases c.reportFormat with
  | error e => simp
  | ok format =>
    simp only [Except.ok.injEq, exists_eq_left']
    generalize Report.deliver _ colors _ = delivered
    cases delivered <;> simp [Except.isOk, Except.toBool]

/-! ## Delivering a report -/

/-- Whether a report can be delivered depends on its format and on the shape of the files only. -/
theorem isOk_deliver_report {t u : Output} (h : t.files.SameShape u.files) (colors : Bool)
    (options : ReportOptions) (format : ReportFormat) (found found' : List Finding) :
    ((report options format found).deliver t colors).isOk =
      ((report options format found').deliver u colors).isOk := by
  have hshown (lines lines' : List Line) :
      (Report.deliver t colors (.shown lines)).isOk =
        (Report.deliver u colors (.shown lines')).isOk := rfl
  have hwritten (path : Path) (text text' kind : String) :
      (Report.deliver t colors (.written path text kind)).isOk =
        (Report.deliver u colors (.written path text' kind)).isOk := by
    unfold Report.deliver
    dsimp only
    rw [FileTree.write_eq, FileTree.write_eq, h.placeOf_eq]
    cases u.files.placeOf path <;> rfl
  have hdata (kind : String) (value value' : Json) :
      ((dataReport options kind value).deliver t colors).isOk =
        ((dataReport options kind value').deliver u colors).isOk := by
    unfold dataReport
    cases options.output with
    | none => exact hshown _ _
    | some path => exact hwritten path _ _ kind
  -- only the data formats are ever written to a file
  cases format with
  | json => exact hdata _ _ _
  | sarif => exact hdata _ _ _
  | _ => exact hshown _ _

theorem files_applyBaseline (c : CommandLine) (colors : Bool) (found : List Finding) (o : Output) :
    (applyBaseline c colors found o).2.files = o.files := by
  unfold applyBaseline
  cases c.baseline with
  | none => rfl
  | some path =>
    dsimp only
    cases Baseline.load o.files path with
    | error e => rfl
    | ok b =>
      dsimp only
      split <;> rfl

/-- What is in a saved baseline does not matter for the shape of the files. -/
theorem sameShape_saveBaseline (c : CommandLine) (colors : Bool) (found found' : List Finding)
    {t u : Output} (h : t.files = u.files) :
    (saveBaseline c colors found t).files.SameShape (saveBaseline c colors found' u).files := by
  unfold saveBaseline
  cases c.generateBaseline with
  | none => exact h ▸ FileTree.SameShape.refl _
  | some path =>
    dsimp only [Baseline.save]
    rw [FileTree.write_eq, FileTree.write_eq, h]
    cases u.files.placeOf path with
    | error e => exact h ▸ FileTree.SameShape.refl _
    | ok place => exact FileTree.sameShape_put u.files place _ _

/-! ## Exit codes -/

/-- The exit code that belongs to an outcome. -/
def exitCode : Except RunError Bool → Nat
  | .ok grave => if grave then 1 else 0
  | .error _ => 1

theorem exitCode_eq_one_iff {outcome : Except RunError Bool} :
    exitCode outcome = 1 ↔ outcome ≠ .ok false := by
  rcases outcome with _ | _ | _ <;> simp [exitCode]

theorem program_exitCode {words : List String} {c : CommandLine}
    (h : CommandLine.parse words = .ok c) (colors : Bool) (files : FileTree) :
    (program words colors files).exitCode = exitCode ((run c colors).run { files }).1 := by
  unfold program
  rw [h]
  dsimp only
  rcases (run c colors).run { files } with ⟨_ | grave, o⟩ <;> rfl

end AdLint
