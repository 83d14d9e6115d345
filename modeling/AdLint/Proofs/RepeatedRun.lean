import AdLint.Proofs.Footprint
import AdLint.Proofs.SavedBaseline
import AdLint.Proofs.Tightening

/-!
# Repeated runs

A run that saves a baseline and is then repeated with it has nothing to report. The second run comes
to the same findings, since the first one has written no file that is read on the way to them; it
loads the baseline that was saved; and a baseline covers its own findings, also those that look
alike, since each has an entry of its own. The report can be delivered as before.

Nothing is assumed about where a run ends. If there was nothing to analyze, nothing was saved, and
the second run has nothing to analyze either. If the baseline could not be saved, it is not there.

## Main definitions

* `CommandLine.reportFile?`, `CommandLine.writtenFiles`: the files that a run may write
* `CommandLine.Repeats`: the command line of a second run

## Main results

* `files_after_conclude`: the files after a run that has saved a baseline
* `conclude_of_baseline`: a run that loads the baseline of its own findings reports nothing
* `repeated_run_reports_nothing`: the second run reports nothing and exits with 0
-/

namespace AdLint

/-! ## Baselines that are saved -/

namespace Baseline

theorem exists_save_of_isFile {t : FileTree} {path : Path} (h : t.isFile path = true)
    (b : Baseline) :
    ∃ u, b.save t path = .ok u := by
  obtain ⟨place, hplace, hkind⟩ := FileTree.isFile_iff.mp h
  unfold save
  rw [FileTree.write_eq, FileTree.placeOf_of_locate hplace hkind]
  exact ⟨_, rfl⟩

theorem linesFit_ofFindings {base : Path} {found : List Finding}
    (h : ∀ f ∈ found, f.location.line < Nat.pow 2 64) : (ofFindings base found).LinesFit := by
  intro e he line hline
  rw [(perm_entries_ofFindings base found).mem_iff, List.mem_map] at he
  obtain ⟨f, hf, rfl⟩ := he
  cases hline
  exact h f hf

end Baseline

/-! ## What a run writes -/

/-- The file that a run writes its report to, if it writes one: only data formats are ever
written. -/
def CommandLine.reportFile? (c : CommandLine) : Option Path :=
  match c.reportFormat with
  | .ok .json | .ok .sarif => c.output
  | _ => none

theorem files_deliver (c : CommandLine) {format : ReportFormat}
    (hformat : c.reportFormat = .ok format)
    (files declarations : Nat) (found : List Finding) (o : Output) (colors : Bool) :
    ∃ text,
      ((report (c.reportOptions files declarations) format found).deliver o colors).map
        Output.files = match c.reportFile? with
        | none => .ok o.files
        | some path => o.files.write path text := by
  have hdata (kind : String) (value : Json) : ∃ text,
      ((dataReport (c.reportOptions files declarations) kind value).deliver o colors).map
        Output.files = match c.output with
        | none => .ok o.files
        | some path => o.files.write path text := by
    unfold dataReport CommandLine.reportOptions
    dsimp only
    cases c.output with
    | none => exact ⟨"", rfl⟩
    | some path =>
      refine ⟨value.pretty, ?_⟩
      dsimp only [Report.deliver]
      cases o.files.write path value.pretty <;> rfl
  unfold CommandLine.reportFile?
  rw [hformat]
  cases format with
  | json => exact hdata _ _
  | sarif => exact hdata _ _
  | _ => exact ⟨"", rfl⟩

theorem files_saveBaseline (c : CommandLine) (colors : Bool) (found : List Finding) (o : Output) :
    (saveBaseline c colors found o).files =
      match c.generateBaseline with
      | none => o.files
      | some path =>
        match (Baseline.ofFindings c.project found).save o.files path with
        | .ok files => files
        | .error _ => o.files := by
  unfold saveBaseline
  cases c.generateBaseline with
  | none => rfl
  | some path =>
    dsimp only
    cases (Baseline.ofFindings c.project found).save o.files path <;> rfl

/-- How a run that ends well has ended. -/
theorem conclude_eq_ok {c : CommandLine} {colors grave : Bool} {v : Survey} {o o' : Output}
    (h : c.conclude colors v o = (.ok grave, o')) :
    c.reportFormat.isOk = true ∧
      match c.reportFile? with
      | none => o'.files = (saveBaseline c colors v.found o).files
      | some path =>
        ∃ text, (saveBaseline c colors v.found o).files.write path text = .ok o'.files := by
  unfold CommandLine.conclude at h
  cases hformat : c.reportFormat with
  | error e =>
    rw [hformat] at h
    cases h
  | ok format =>
    refine ⟨rfl, ?_⟩
    rw [hformat] at h
    dsimp only at h
    obtain ⟨text, htext⟩ := files_deliver c hformat v.files v.declarations
      (applyBaseline c colors v.found (saveBaseline c colors v.found o)).1
      (applyBaseline c colors v.found (saveBaseline c colors v.found o)).2 colors
    rw [files_applyBaseline] at htext
    generalize Report.deliver _ colors _ = delivered at h htext
    cases delivered with
    | error e => cases h
    | ok o₁ =>
      cases h
      cases hfile : c.reportFile? with
      | none =>
        rw [hfile] at htext
        exact Except.ok.inj htext
      | some path =>
        rw [hfile] at htext
        exact ⟨text, htext.symm⟩

/-- A run whose report can be written ends well or with a grave finding. -/
theorem exists_conclude {c : CommandLine} (hformat : c.reportFormat.isOk = true) (colors : Bool)
    (v : Survey) (o : Output) (hreport : ∀ path ∈ c.reportFile?, ∃ place,
      (saveBaseline c colors v.found o).files.placeOf path = .ok place) :
    ∃ o', c.conclude colors v o =
      (.ok ((applyBaseline c colors v.found (saveBaseline c colors v.found o)).1.any
        fun f => f.severity == .error), o') := by
  unfold CommandLine.conclude
  cases hf : c.reportFormat with
  | error e =>
    rw [hf] at hformat
    cases hformat
  | ok format =>
    dsimp only
    obtain ⟨text, htext⟩ := files_deliver c hf v.files v.declarations
      (applyBaseline c colors v.found (saveBaseline c colors v.found o)).1
      (applyBaseline c colors v.found (saveBaseline c colors v.found o)).2 colors
    rw [files_applyBaseline] at htext
    generalize Report.deliver _ colors _ = delivered at htext ⊢
    cases delivered with
    | ok o₁ => exact ⟨o₁, rfl⟩
    | error e =>
      cases hfile : c.reportFile? with
      | none =>
        rw [hfile] at htext
        cases htext
      | some path =>
        obtain ⟨place, hplace⟩ := hreport path hfile
        rw [hfile] at htext
        dsimp only at htext
        rw [FileTree.write_eq, hplace] at htext
        cases htext

/-- The files that a run may write. -/
def CommandLine.writtenFiles (c : CommandLine) : List Path :=
  c.generateBaseline.toList ++ c.reportFile?.toList

section FirstRun

variable {c : CommandLine} {file : Path} {colors grave : Bool} {v : Survey} {o o' : Output}

/-- The files after a run that has saved a baseline. The text of the baseline is there, since the
report goes to another file, and a report can be written to its file again. -/
theorem files_after_conclude (hsaves : c.generateBaseline = some file)
    (hrun : c.conclude colors v o = (.ok grave, o')) (hfile : o'.files.isFile file = true)
    (hother : ∀ path ∈ c.reportFile?, o'.files.locate path ≠ o'.files.locate file) :
    ∃ places, FileTree.WrittenAt places o.files o'.files ∧
      (∀ place ∈ places, ∃ path ∈ c.writtenFiles, o'.files.locate path = .ok place) ∧
      o'.files.read file = .ok (Baseline.ofFindings c.project v.found).written ∧
      ∀ path ∈ c.reportFile?, ∃ place, o'.files.placeOf path = .ok place := by
  obtain ⟨-, hreport⟩ := conclude_eq_ok hrun
  rw [files_saveBaseline, hsaves] at hreport
  dsimp only at hreport
  have hsaves' : file ∈ c.writtenFiles := by
    rw [CommandLine.writtenFiles, hsaves]
    exact List.mem_cons_self
  cases hsave : (Baseline.ofFindings c.project v.found).save o.files file with
  | error e =>
    -- the file is there, so it was there before, and saving would not have failed
    exfalso
    rw [hsave] at hreport
    have hbefore : o.files.isFile file = true := by
      cases hpath : c.reportFile? with
      | none =>
        rw [hpath] at hreport
        dsimp only at hreport
        exact hreport ▸ hfile
      | some path =>
        rw [hpath] at hreport
        obtain ⟨text, hwrite⟩ := hreport
        obtain ⟨place', -, hwritten, hplace', -⟩ := FileTree.write_ok hwrite
        refine hwritten.isFile_back hfile fun found hfound hmem => hother path hpath ?_
        rw [hfound, hplace', List.mem_singleton.mp hmem]
    obtain ⟨files, hsaved⟩ :=
      Baseline.exists_save_of_isFile hbefore (Baseline.ofFindings c.project v.found)
    rw [hsave] at hsaved
    cases hsaved
  | ok files =>
    rw [hsave] at hreport
    dsimp only at hreport
    obtain ⟨place₁, -, hwritten, hplace₁, hread⟩ := FileTree.write_ok (Baseline.write_of_save hsave)
    cases hpath : c.reportFile? with
    | none =>
      rw [hpath] at hreport
      dsimp only at hreport
      rw [hreport]
      refine ⟨[place₁], hwritten, ?_, hread, by simp⟩
      exact fun found hmem => ⟨file, hsaves', List.mem_singleton.mp hmem ▸ hplace₁⟩
    | some path =>
      rw [hpath] at hreport
      obtain ⟨text, hwrite⟩ := hreport
      obtain ⟨place₂, hplaceOf, hwritten₂, hplace₂, -⟩ := FileTree.write_ok hwrite
      have hpath' : path ∈ c.writtenFiles := by
        rw [CommandLine.writtenFiles, hpath]
        exact List.mem_append_right _ List.mem_cons_self
      have hne : place₁ ∉ [place₂] := by
        intro hmem
        refine hother path hpath ?_
        rw [hplace₂, hwritten₂.locate_ok hplace₁, List.mem_singleton.mp hmem]
      refine ⟨[place₁] ++ [place₂], hwritten.trans hwritten₂, ?_,
        hwritten₂.read_ok hread hplace₁ hne, ?_⟩
      · intro found hmem
        rcases List.mem_append.mp hmem with hmem | hmem
        · exact ⟨file, hsaves', List.mem_singleton.mp hmem ▸ hwritten₂.locate_ok hplace₁⟩
        · exact ⟨path, hpath', List.mem_singleton.mp hmem ▸ hplace₂⟩
      · intro other hsome
        cases hsome
        exact ⟨place₂, hwritten₂.placeOf_ok hplaceOf⟩

end FirstRun

/-! ## The second run -/

section SecondRun

variable {c : CommandLine} {file : Path} {v : Survey} {o : Output}

/-- A baseline that a run saves again before it loads it is still there. -/
theorem read_saveBaseline (hagain : c.generateBaseline = none ∨ c.generateBaseline = some file)
    (hread : o.files.read file = .ok (Baseline.ofFindings c.project v.found).written)
    (colors : Bool) :
    (saveBaseline c colors v.found o).files.read file =
        .ok (Baseline.ofFindings c.project v.found).written ∧
      ∀ path place, o.files.placeOf path = .ok place →
        (saveBaseline c colors v.found o).files.placeOf path = .ok place := by
  rw [files_saveBaseline]
  rcases hagain with hagain | hagain <;> rw [hagain] <;> dsimp only
  · exact ⟨hread, fun _ _ hplace => hplace⟩
  · cases hsave : (Baseline.ofFindings c.project v.found).save o.files file with
    | error e => exact ⟨hread, fun _ _ hplace => hplace⟩
    | ok files =>
      obtain ⟨_, -, hwritten, -, hread⟩ := FileTree.write_ok (Baseline.write_of_save hsave)
      exact ⟨hread, fun _ _ hplace => hwritten.placeOf_ok hplace⟩

/-- A run that loads the baseline of its own findings reports nothing and ends well. -/
theorem conclude_of_baseline (hbaseline : c.baseline = some file)
    (hagain : c.generateBaseline = none ∨ c.generateBaseline = some file)
    (hread : o.files.read file = .ok (Baseline.ofFindings c.project v.found).written)
    (hlines : ∀ f ∈ v.found, f.location.line < Nat.pow 2 64) (hformat : c.reportFormat.isOk = true)
    (hreport : ∀ path ∈ c.reportFile?, ∃ place, o.files.placeOf path = .ok place) (colors : Bool) :
    (applyBaseline c colors v.found (saveBaseline c colors v.found o)).1 = [] ∧
      (c.conclude colors v o).1 = .ok false := by
  obtain ⟨hsaved, hplaces⟩ := read_saveBaseline hagain hread colors
  have hload := Baseline.load_of_read rfl (Baseline.linesFit_ofFindings hlines) hsaved
  have hnothing : (applyBaseline c colors v.found (saveBaseline c colors v.found o)).1 = [] := by
    unfold applyBaseline
    rw [hbaseline]
    dsimp only
    rw [hload]
    exact Baseline.newOf_ofFindings (List.Subperm.refl _)
  obtain ⟨o', hends⟩ := exists_conclude hformat colors v o fun path hpath =>
    (hreport path hpath).imp fun place => hplaces path place
  rw [hends, hnothing]
  exact ⟨rfl, rfl⟩

end SecondRun

/-! ## Both runs -/

/-- The command line of a second run: the same one with the baseline, and with or without saving it
again. -/
def CommandLine.Repeats (c' c : CommandLine) (file : Path) : Prop :=
  c' = { c with baseline := some file, generateBaseline := c'.generateBaseline } ∧
    (c'.generateBaseline = none ∨ c'.generateBaseline = some file)

namespace CommandLine.Repeats

variable {c c' : CommandLine} {file : Path} (h : c'.Repeats c file)

include h

theorem baseline_eq : c'.baseline = some file := by
  rw [h.1]

theorem project_eq : c'.project = c.project := by
  rw [h.1]

theorem reportFormat_eq : c'.reportFormat = c.reportFormat := by
  rw [h.1]
  rfl

theorem reportFile?_eq : c'.reportFile? = c.reportFile? := by
  rw [h.1]
  rfl

theorem survey_eq (t : FileTree) : c'.survey t = c.survey t := by
  rw [h.1]
  rfl

end CommandLine.Repeats

/-- A run that is repeated with the baseline it has saved reports nothing and ends well. -/
theorem run_of_repeats {c c' : CommandLine} {file : Path} {t : FileTree} {colors grave : Bool}
    {o : Output}
    (hsaves : c.generateBaseline = some file) (hrepeats : c'.Repeats c file)
    (hrun : (run c colors).run { files := t } = (.ok grave, o)) (hfile : o.files.isFile file = true)
    (hother : ∀ path ∈ c.reportFile?, o.files.locate path ≠ o.files.locate file)
    (hunread : ∀ path ∈ c.writtenFiles, ∀ place, o.files.locate path = .ok place →
      ¬ c.Reads o.files place)
    (hlines : ∀ f ∈ c.found t, f.location.line < Nat.pow 2 64) (colors' : Bool) :
    c'.reported colors' o.files = [] ∧
    ((run c' colors').run { files := o.files }).1 = .ok false := by
  obtain ⟨o₁, hfiles₁, hrun₁⟩ := run_eq_conclude c colors t
  obtain ⟨o₂, hfiles₂, hrun₂⟩ := run_eq_conclude c' colors' o.files
  rw [hrun₁] at hrun
  rw [hrun₂]
  unfold CommandLine.reported
  cases hsurvey : c.survey t with
  | error e =>
    rw [hsurvey] at hrun
    cases hrun
  | ok found =>
    cases found with
    | none =>
      -- there was nothing to analyze, and nothing was written
      rw [hsurvey] at hrun
      cases hrun
      rw [hrepeats.survey_eq, hfiles₁, hsurvey]
      exact ⟨rfl, rfl⟩
    | some v =>
      rw [hsurvey] at hrun
      dsimp only at hrun
      obtain ⟨places, hwritten, hplaces, hread, hreport⟩ :=
        files_after_conclude hsaves hrun hfile hother
      rw [hfiles₁] at hwritten
      have hsame : c.survey o.files = .ok (some v) := by
        rw [← hsurvey]
        refine hwritten.survey_eq fun place hmem => ?_
        obtain ⟨path, hpath, hplace⟩ := hplaces place hmem
        exact hunread path hpath place hplace
      unfold CommandLine.found at hlines
      rw [hsurvey] at hlines
      rw [← hrepeats.project_eq] at hread
      rw [← hrepeats.reportFile?_eq] at hreport
      have hformat : c'.reportFormat.isOk = true := by
        rw [hrepeats.reportFormat_eq]
        exact (conclude_eq_ok hrun).1
      have hsecond (o' : Output) (ho' : o'.files = o.files) := conclude_of_baseline
        hrepeats.baseline_eq hrepeats.2 (ho' ▸ hread) hlines hformat (ho' ▸ hreport) colors'
      rw [hrepeats.survey_eq, hsame]
      exact ⟨(hsecond { files := o.files } rfl).1, (hsecond o₂ hfiles₂).2⟩

/-- A baseline covers its own findings, and a run that saves a baseline comes to nothing new when it
is repeated with that baseline: it reports no finding and exits with 0. Between the two runs nothing
has changed but the files that the first one has written, and those are not read by it. -/
theorem repeated_run_reports_nothing :
    (∀ (base : Path) (found part : List Finding), part.Subperm found →
        (Baseline.ofFindings base found).newOf base part = []) ∧
      ∀ (c c' : CommandLine) (file : Path) (t : FileTree) (colors colors' grave : Bool)
        (o : Output), c.generateBaseline = some file → c'.Repeats c file →
        (run c colors).run { files := t } = (.ok grave, o) → o.files.isFile file = true →
        (∀ path ∈ c.reportFile?, o.files.locate path ≠ o.files.locate file) →
        (∀ path ∈ c.writtenFiles, ∀ place, o.files.locate path = .ok place →
          ¬ c.Reads o.files place) →
        (∀ f ∈ c.found t, f.location.line < Nat.pow 2 64) →
          c'.reported colors' o.files = [] ∧
            ((run c' colors').run { files := o.files }).1 = .ok false ∧
            ∀ words, CommandLine.parse words = .ok c' →
              (program words colors' o.files).exitCode = 0 := by
  refine ⟨fun base found part hpart => Baseline.newOf_ofFindings hpart, ?_⟩
  intro c c' file t colors colors' grave o hsaves hrepeats hrun hfile hother hunread hlines
  obtain ⟨hnothing, hends⟩ :=
    run_of_repeats hsaves hrepeats hrun hfile hother hunread hlines colors'
  refine ⟨hnothing, hends, fun words hwords => ?_⟩
  rw [program_exitCode hwords, hends]
  rfl

/-! A project with a job service whose two fields have the same finding. The report is written
beside the baseline. -/

/-- The files of the project, with those that a run has written. -/
def queueTree (written : List (String × FileNode)) : FileTree :=
  { top := .directory <|
      ("Sync.java", .file (some
        "class Sync extends JobService \x7b Queue q = new Queue(); Queue r = new Queue(); \x7d")) ::
        written
    here := [] }

/-- The files after the first run, with the texts of the baseline and the report. -/
def queueTreeAfter (saved shown : String) : FileTree :=
  queueTree [("base.json", .file (some saved)), ("out.json", .file (some shown))]

/-- The first command line. -/
def savingLine : CommandLine :=
  { format := .json, output := some ⟨"out.json"⟩, generateBaseline := some ⟨"base.json"⟩ }

/-- The second command line. -/
def repeatedLine : CommandLine :=
  { savingLine with baseline := some ⟨"base.json"⟩, generateBaseline := none }

theorem discover_queueTree : discover (queueTree []) {} ⟨"."⟩ = .ok [⟨"./Sync.java"⟩] := by
  decide +kernel

/-- The survey of the project for any command line that keeps to the defaults where it reads. -/
theorem survey_queueTree {c : CommandLine} (h : c.Analyzes) (hproject : c.project = ⟨"."⟩)
    (hsettings : c.settings (queueTree []) = .ok {})
    (hleast : Confidence.parse c.minConfidence = .ok .low) :
    c.survey (queueTree []) = .ok (some (c.surveyOf (queueTree []) {} .low [⟨"./Sync.java"⟩])) :=
  (CommandLine.survey_eq_ok_iff h).mpr
    ⟨{}, .low, [⟨"./Sync.java"⟩], hsettings, hleast, by rw [hproject, discover_queueTree], rfl⟩

theorem survey_savingLine :
    savingLine.survey (queueTree []) =
      .ok (some (savingLine.surveyOf (queueTree []) {} .low [⟨"./Sync.java"⟩])) :=
  survey_queueTree ⟨rfl, rfl⟩ rfl rfl rfl

theorem walk_queueTreeAfter (saved shown : String) :
    walk (queueTreeAfter saved shown) ⟨"."⟩ [] ⟨"."⟩ =
      [⟨"./Sync.java"⟩, ⟨"./base.json"⟩, ⟨"./out.json"⟩] := by
  have hhere : (queueTreeAfter saved shown).locate ⟨"."⟩ = .ok [] := rfl
  have hfiles : (queueTreeAfter saved shown).top.filesAt [] =
      [["Sync.java"], ["base.json"], ["out.json"]] := rfl
  have hjava : (⟨"."⟩ : Path).join ⟨"Sync.java"⟩ = ⟨"./Sync.java"⟩ := by decide
  have hbase : (⟨"."⟩ : Path).join ⟨"base.json"⟩ = ⟨"./base.json"⟩ := by decide
  have hout : (⟨"."⟩ : Path).join ⟨"out.json"⟩ = ⟨"./out.json"⟩ := by decide
  rw [walk_eq_filesAt hhere rfl, hfiles, List.filter_eq_self.mpr]
  · simp only [List.map_cons, List.map_nil, Walk.path, List.foldl_cons, List.foldl_nil, hjava,
      hbase, hout]
  · intro names hnames
    rcases List.mem_cons.mp hnames with rfl | hnames
    · rfl
    rcases List.mem_cons.mp hnames with rfl | hnames
    · rfl
    rw [List.mem_singleton.mp hnames]
    rfl

theorem discover_queueTreeAfter (saved shown : String) :
    discover (queueTreeAfter saved shown) {} ⟨"."⟩ = .ok [⟨"./Sync.java"⟩] := by
  have hsources : sourcesBelow (queueTreeAfter saved shown) ⟨"."⟩ [] ⟨"."⟩ = [⟨"./Sync.java"⟩] := by
    rw [sourcesBelow, walk_queueTreeAfter]
    rfl
  have htargets : allTargets {} ⟨"."⟩ = [⟨"."⟩] := rfl
  have hexclusions : exclusionsOf {} = .ok [] := rfl
  rw [discover_eq_sources, hexclusions, htargets]
  simp [Except.map, hsources, mergeNeighbours]

theorem not_reads_queueTreeAfter {saved shown : String} {place : List String}
    (hplace : place ∈ [["base.json"], ["out.json"]]) :
    ¬ savingLine.Reads (queueTreeAfter saved shown) place := by
  have hsettings : savingLine.settings (queueTreeAfter saved shown) = .ok {} := rfl
  intro hread
  cases hread with
  | settings hpath _ =>
    have hnone : savingLine.settingsFile? (queueTreeAfter saved shown) = none := rfl
    rw [hnone] at hpath
    cases hpath
  | source hs hfiles hpath hlocate =>
    cases hsettings.symm.trans hs
    cases (discover_queueTreeAfter saved shown).symm.trans hfiles
    rw [List.mem_singleton.mp hpath] at hlocate
    have hjava : (queueTreeAfter saved shown).locate ⟨"./Sync.java"⟩ = .ok ["Sync.java"] := rfl
    cases hjava.symm.trans hlocate
    simp at hplace
  | @walk _ w _ hs hw hread =>
    cases hsettings.symm.trans hs
    have htarget : w.target = ⟨"."⟩ := List.mem_singleton.mp hw.target
    have hhere : w.place = [] := by
      have hlocate := hw.place
      rw [htarget] at hlocate
      exact (Except.ok.inj hlocate).symm
    have hsteps (name : String) : w.path [name] = (⟨"."⟩ : Path).join ⟨name⟩ := by
      rw [← htarget]
      rfl
    cases hread with
    | ignoreAbove hk _ =>
      rw [hhere] at hk
      exact absurd hk (Nat.not_lt_zero _)
    | @ignoreBelow names fileName _ hname =>
      have hlast :
          (w.place ++ names ++ [fileName]).getLast? ∈ [some "base.json", some "out.json"] :=
        List.mem_map_of_mem hplace
      rw [List.getLast?_concat] at hlast
      simp [ignoreNames] at hname hlast
      rcases hname with rfl | rfl <;> simp at hlast
    | @source names _ hkind =>
      rw [hhere, List.nil_append] at hplace
      rcases List.mem_cons.mp hplace with rfl | hplace
      · rw [hsteps] at hkind
        exact absurd hkind (by decide)
      · rw [List.mem_singleton.mp hplace, hsteps] at hkind
        exact absurd hkind (by decide)

/-- The survey of the first run. -/
def queueSurvey : Survey := savingLine.surveyOf (queueTree []) {} .low [⟨"./Sync.java"⟩]

theorem foundBy_queueTree :
    (foundBy {} (Project.ofFiles (queueTree []) [⟨"./Sync.java"⟩])).map
        (fun f => (f.rule, f.location.line)) =
      [(.eagerJobServiceField, 1), (.eagerJobServiceField, 1)] := by
  decide +kernel

theorem line_of_mem_queueSurvey {f : Finding} (hf : f ∈ queueSurvey.found) :
    f.location.line = 1 := by
  have hproject : readProject savingLine (queueTree []) [⟨"./Sync.java"⟩] =
      Project.ofFiles (queueTree []) [⟨"./Sync.java"⟩] := if_neg (by decide)
  unfold queueSurvey CommandLine.surveyOf findings at hf
  dsimp only at hf
  rw [hproject, analyze_eq_mergeSort] at hf
  have hkept := List.mem_mergeSort.mp (List.mem_filter.mp hf).1
  obtain ⟨g, hg, rfl⟩ := List.mem_map.mp hkept
  have hline := List.mem_map_of_mem (f := fun f : Finding => (f.rule, f.location.line))
    (List.mem_filter.mp hg).1
  rw [foundBy_queueTree] at hline
  have hones : ∀ pair ∈ [(Rule.eagerJobServiceField, 1), (Rule.eagerJobServiceField, 1)],
      pair.2 = 1 := by
    decide
  exact hones _ hline

theorem repeated_run_reports_nothing_queueTree :
    repeatedLine.Repeats savingLine ⟨"base.json"⟩ ∧
      (foundBy {} (Project.ofFiles (queueTree []) [⟨"./Sync.java"⟩])).map
          (fun f => (f.rule, f.location.line)) =
        [(.eagerJobServiceField, 1), (.eagerJobServiceField, 1)] ∧
      ∃ grave o, (run savingLine false).run { files := queueTree [] } = (.ok grave, o) ∧
        repeatedLine.reported true o.files = [] ∧
        (program ["--format", "json", "--output", "out.json", "--baseline", "base.json"] true
          o.files).exitCode = 0 := by
  have hrepeats : repeatedLine.Repeats savingLine ⟨"base.json"⟩ := ⟨rfl, .inl rfl⟩
  have hformat : savingLine.reportFormat.isOk = true := rfl
  have hreport : savingLine.reportFile? = some ⟨"out.json"⟩ := rfl
  obtain ⟨o₁, hfiles₁, hrun₁⟩ := run_eq_conclude savingLine false (queueTree [])
  have hfound : savingLine.found (queueTree []) = queueSurvey.found := by
    unfold CommandLine.found
    rw [survey_savingLine]
    rfl
  rw [survey_savingLine] at hrun₁
  have hsaved : (saveBaseline savingLine false queueSurvey.found o₁).files =
      queueTree [("base.json",
        .file (some (Baseline.ofFindings savingLine.project queueSurvey.found).written))] := by
    rw [files_saveBaseline, hfiles₁]
    rfl
  obtain ⟨o, hconclude⟩ := exists_conclude hformat false queueSurvey o₁ fun path hpath => by
    cases hreport.symm.trans hpath
    exact ⟨["out.json"], by rw [hsaved]; rfl⟩
  obtain ⟨shown, hwrite⟩ := (conclude_eq_ok hconclude).2
  rw [hsaved] at hwrite
  have hafter : o.files = queueTreeAfter _ shown := (Except.ok.inj hwrite).symm
  have hbase : o.files.locate ⟨"base.json"⟩ = .ok ["base.json"] := by rw [hafter]; rfl
  have hout : o.files.locate ⟨"out.json"⟩ = .ok ["out.json"] := by rw [hafter]; rfl
  obtain ⟨hnothing, -, hexit⟩ :=
    repeated_run_reports_nothing.2 savingLine repeatedLine ⟨"base.json"⟩
    (queueTree []) false true _ o rfl hrepeats (hrun₁.trans hconclude) (by rw [hafter]; rfl)
    (by
      intro path hpath
      cases hreport.symm.trans hpath
      rw [hbase, hout]
      simp)
    (by
      intro path hpath place hplace
      rw [hafter]
      refine not_reads_queueTreeAfter ?_
      have hwritten : savingLine.writtenFiles = [⟨"base.json"⟩, ⟨"out.json"⟩] := rfl
      rw [hwritten] at hpath
      rcases List.mem_cons.mp hpath with rfl | hpath
      · cases hbase.symm.trans hplace
        exact List.mem_cons_self
      · rw [List.mem_singleton.mp hpath] at hplace
        cases hout.symm.trans hplace
        exact List.mem_cons_of_mem _ List.mem_cons_self)
    (by
      intro f hf
      rw [line_of_mem_queueSurvey (hfound ▸ hf)]
      decide)
  exact ⟨hrepeats, foundBy_queueTree, _, o, hrun₁.trans hconclude, hnothing, hexit _ rfl⟩

end AdLint
