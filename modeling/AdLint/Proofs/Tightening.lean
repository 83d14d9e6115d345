import AdLint.Proofs.Covering
import AdLint.Proofs.Outcome
import AdLint.Proofs.Selection

/-!
# Tighter runs

A run reports the findings of the analysis that are sure enough and that its baseline does not
cover. A run is tightened by asking for more confidence or by letting fewer rules run. That takes
findings away from the analysis, and each of them may have used up an entry of the baseline, which
then covers a finding that was reported before. It never uncovers one: the entries that are left for
a finding only become more. So a tighter run reports part of what the looser one reports, in the
same order, and is not the one of the two that ends badly.

## Main definitions

* `Settings.Tightens`: settings that let fewer rules run and are the same otherwise
* `CommandLine.AgreesBesidesFilters`: command lines that differ in the filters at most
* `KeepsBaseline`: a run does not write over the baseline it reads

## Main results

* `findings_sublist`: a tighter analysis finds part of what a looser one finds
* `reportedBy_sublist`: a tighter run reports part of what a looser one reports
* `runWith_of_tightens`, `run_of_tightens`: if a looser run ends well, so does a tighter one
* `tightening_surfaces_nothing`: more filters surface no finding and no failure
-/

namespace AdLint

/-! ## Fewer rules and more confidence -/

/-- Settings that let fewer rules run, and are the same otherwise. -/
structure Settings.Tightens (s' s : Settings) : Prop where
  rest : s'.withoutSelection = s.withoutSelection
  enables : ∀ rule, s'.enables rule = true → s.enables rule = true

theorem Settings.lists_mono {words words' : List String} (h : words ⊆ words') {rule : Rule}
    (hrule : Settings.lists words rule = true) : Settings.lists words' rule = true := by
  obtain ⟨word, hword, hdenotes⟩ := List.any_eq_true.mp hrule
  exact List.any_eq_true.mpr ⟨word, h hword, hdenotes⟩

/-- Settings are tightened by disabling more rules, and by enabling some rules only: some of all of
them, or some of those that were enabled. -/
theorem Settings.Tightens.of_lists {s : Settings} {disabled enabled : List String}
    (hdisabled : s.rules.disabled ⊆ disabled)
    (henabled : enabled = s.rules.enabled ∨
      enabled ≠ [] ∧ (s.rules.enabled = [] ∨ enabled ⊆ s.rules.enabled)) :
    Tightens { s with rules := { s.rules with disabled, enabled } } s := by
  refine ⟨rfl, fun rule hrule => ?_⟩
  simp only [Settings.enables, Bool.and_eq_true, Bool.or_eq_true, Bool.not_eq_true',
    List.isEmpty_iff] at hrule ⊢
  obtain ⟨hallowed, hchosen⟩ := hrule
  constructor
  · -- a rule that was disabled before is disabled still
    by_contra hlisted
    rw [Bool.not_eq_false] at hlisted
    rw [Settings.lists_mono hdisabled hlisted] at hallowed
    exact Bool.noConfusion hallowed
  · rcases henabled with rfl | ⟨hne, hall | hsome⟩
    · exact hchosen
    · exact .inl hall
    · exact .inr (Settings.lists_mono hsome (hchosen.resolve_left hne))

section Findings

variable {s s' : Settings} {least least' : Confidence}

theorem analyze_sublist (h : s'.Tightens s) (p : Project) :
    (analyze s' p).Sublist (analyze s p) := by
  rw [analyze_eq_filter s', analyze_eq_filter s, h.rest]
  exact List.monotone_filter_right _ fun f => h.enables f.rule

/-- A tighter analysis finds part of what a looser one finds. -/
theorem findings_sublist (h : s'.Tightens s) (hleast : least.rank ≤ least'.rank) (p : Project) :
    (findings s' least' p).Sublist (findings s least p) := by
  have hconfident : ∀ f : Finding, decide (least'.rank ≤ f.confidence.rank) = true →
      decide (least.rank ≤ f.confidence.rank) = true := by
    intro f hf
    rw [decide_eq_true_eq] at hf ⊢
    exact hleast.trans hf
  have hfewer := (analyze_sublist h p).filter fun f => least'.rank ≤ f.confidence.rank
  exact hfewer.trans (List.monotone_filter_right _ hconfident)

end Findings

/-! ## What a run reports -/

/-- A run leaves the baseline that it reads as it is, also if it saves one. -/
def KeepsBaseline (c : CommandLine) (files : FileTree) : Prop :=
  ∀ path ∈ c.baseline, ∀ target ∈ c.generateBaseline, ∀ found files',
    (Baseline.ofFindings c.project found).save files target = .ok files' →
      Baseline.load files' path = Baseline.load files path

theorem KeepsBaseline.load_saveBaseline {c : CommandLine} {o : Output}
    (h : KeepsBaseline c o.files) {path : Path} (hpath : c.baseline = some path) (colors : Bool)
    (found : List Finding) :
    Baseline.load (saveBaseline c colors found o).files path = Baseline.load o.files path := by
  unfold saveBaseline
  cases htarget : c.generateBaseline with
  | none => rfl
  | some target =>
    dsimp only
    cases hsave : (Baseline.ofFindings c.project found).save o.files target with
    | error e => rfl
    | ok files' => exact h path hpath target htarget found files' hsave

/-- The findings that a baseline leaves, if there is one. -/
theorem applyBaseline_sublist (c : CommandLine) (colors : Bool) {found found' : List Finding}
    (hfound : found'.Sublist found) {o o' : Output}
    (hload : ∀ path, c.baseline = some path →
      Baseline.load o'.files path = Baseline.load o.files path) :
    (applyBaseline c colors found' o').1.Sublist (applyBaseline c colors found o).1 := by
  unfold applyBaseline
  cases hpath : c.baseline with
  | none => exact hfound
  | some path =>
    dsimp only
    rw [hload path hpath]
    cases Baseline.load o.files path with
    | error e => exact hfound
    | ok b => exact b.newOf_sublist c.project hfound

section Runs

variable {c c' : CommandLine} {s s' : Settings} {least least' : Confidence}

/-- Command lines that ask for the same but for the rules that run and the confidence. -/
def CommandLine.AgreesBesidesFilters (c' c : CommandLine) : Prop :=
  c' = { c with
    config := c'.config
    rules := c'.rules
    disable := c'.disable
    minConfidence := c'.minConfidence }

namespace CommandLine.AgreesBesidesFilters

variable (hc : c'.AgreesBesidesFilters c)

include hc

theorem saveBaseline_eq : saveBaseline c' = saveBaseline c := by
  rw [hc]
  rfl

theorem applyBaseline_eq : applyBaseline c' = applyBaseline c := by
  rw [hc]
  rfl

theorem readProject_eq : readProject c' = readProject c := by
  rw [hc]
  rfl

theorem reportFormat_eq : c'.reportFormat = c.reportFormat := by
  rw [hc]
  rfl

theorem reportOptions_eq : c'.reportOptions = c.reportOptions := by
  rw [hc]
  rfl

end CommandLine.AgreesBesidesFilters

/-- **A tighter run reports part of what a looser one reports,** in the same order. -/
theorem reportedBy_sublist (hc : c'.AgreesBesidesFilters c) (hs : s'.Tightens s)
    (hleast : least.rank ≤ least'.rank) (o o' : Output) (hfiles : o'.files = o.files)
    (hkept : KeepsBaseline c o.files) (colors : Bool) (p : Project) :
    (reportedBy c' colors s' least' p o').Sublist (reportedBy c colors s least p o) := by
  unfold reportedBy
  rw [hc.applyBaseline_eq, hc.saveBaseline_eq]
  refine applyBaseline_sublist c colors (findings_sublist hs hleast p) fun path hpath => ?_
  have hkept' : KeepsBaseline c o'.files := hfiles ▸ hkept
  calc Baseline.load (saveBaseline c colors (findings s' least' p) o').files path
      = Baseline.load o'.files path := hkept'.load_saveBaseline hpath colors _
    _ = Baseline.load o.files path := by rw [hfiles]
    _ = Baseline.load (saveBaseline c colors (findings s least p) o).files path :=
        (hkept.load_saveBaseline hpath colors _).symm

/-- If a looser run ends well once its files are known, so does a tighter one. -/
theorem outcomeOf_of_tightens (hc : c'.AgreesBesidesFilters c) (hs : s'.Tightens s)
    (hleast : least.rank ≤ least'.rank) {o o' : Output} (hfiles : o'.files = o.files)
    (hkept : KeepsBaseline c o.files) {colors : Bool} {files : List Path}
    (h : outcomeOf c colors s least files o = .ok false) :
    outcomeOf c' colors s' least' files o' = .ok false := by
  rw [outcomeOf_eq_ok_false_iff] at h ⊢
  obtain ⟨format, hformat, hdelivered, hharmless⟩ := h
  rw [hc.readProject_eq, hc.reportFormat_eq, hc.reportOptions_eq, hfiles]
  have hpart := reportedBy_sublist hc hs hleast o o' hfiles hkept colors
    (readProject c o.files files)
  have hshape : (beforeReport c' colors s' least' (readProject c o.files files) o').files.SameShape
      (beforeReport c colors s least (readProject c o.files files) o).files := by
    unfold beforeReport
    rw [files_applyBaseline, files_applyBaseline, hc.saveBaseline_eq]
    exact sameShape_saveBaseline c colors _ _ hfiles
  refine ⟨format, hformat, ?_, ?_⟩
  · rw [← hdelivered]
    exact isOk_deliver_report hshape colors _ format _ _
  · rw [List.any_eq_false] at hharmless ⊢
    exact fun f hf => hharmless f (hpart.subset hf)

/-- Which files are read does not depend on the rules that run. -/
theorem discover_of_tightens (hs : s'.Tightens s) (files : FileTree) (project : Path) :
    discover files s' project = discover files s project := by
  have hrest (s : Settings) :
      discover files s.withoutSelection project = discover files s project :=
    rfl
  rw [← hrest s', hs.rest, hrest s]

/-- If a looser run ends well, so does a tighter one. -/
theorem runWith_of_tightens (hc : c'.AgreesBesidesFilters c) (hs : s'.Tightens s)
    (hleast : Confidence.parse c.minConfidence = .ok least)
    (hleast' : Confidence.parse c'.minConfidence = .ok least')
    (hrank : least.rank ≤ least'.rank) (o : Output) (hkept : KeepsBaseline c o.files)
    {colors : Bool} (h : ((runWith c colors s).run o).1 = .ok false) :
    ((runWith c' colors s').run o).1 = .ok false := by
  obtain ⟨o₁, hfiles₁, hrun⟩ := runWith_outcome c colors s o
  obtain ⟨o₂, hfiles₂, hrun'⟩ := runWith_outcome c' colors s' o
  have hproject : c'.project = c.project := by rw [hc]
  -- both runs read the same files, and nothing that depends on the filters comes before that
  rw [hrun, hleast] at h
  rw [hrun', hleast', discover_of_tightens hs, hproject]
  cases hdiscover : discover o.files s c.project with
  | error e =>
    rw [hdiscover] at h
    cases h
  | ok files =>
    rw [hdiscover] at h
    dsimp only at h ⊢
    split at h
    case isTrue hempty => rw [if_pos hempty]
    case isFalse hsome =>
      rw [if_neg hsome]
      exact outcomeOf_of_tightens hc hs hrank (hfiles₂.trans hfiles₁.symm) (hfiles₁ ▸ hkept) h

theorem run_eq_runWith {files : FileTree} (hsettings : c.settings files = .ok s) (colors : Bool)
    (hruns : c.completions.isSome = false) (hruns' : c.listRules = false) :
    (run c colors).run { files } = (runWith c colors s).run { files } := by
  unfold run
  rw [if_neg (by simp [hruns]), if_neg (by simp [hruns'])]
  rw [Run.run_get_bind, hsettings, Run.run_attempt_bind]

theorem run_of_tightens (hc : c'.AgreesBesidesFilters c) (hs : s'.Tightens s)
    (hleast : Confidence.parse c.minConfidence = .ok least)
    (hleast' : Confidence.parse c'.minConfidence = .ok least')
    (hrank : least.rank ≤ least'.rank) {files : FileTree} (hkept : KeepsBaseline c files)
    (hsettings : c.settings files = .ok s) (hsettings' : c'.settings files = .ok s')
    {colors : Bool} (h : ((run c colors).run { files }).1 = .ok false) :
    ((run c' colors).run { files }).1 = .ok false := by
  have hcompletions : c'.completions = c.completions := by rw [hc]
  have hlistRules : c'.listRules = c.listRules := by rw [hc]
  -- a run that only lists the rules or writes completions ends well in either case
  cases hc₁ : c.completions.isSome with
  | true =>
    unfold run
    rw [hcompletions, if_pos hc₁]
    rfl
  | false =>
    cases hc₂ : c.listRules with
    | true =>
      unfold run
      rw [hcompletions, hlistRules, if_neg (by simp [hc₁]), if_pos hc₂]
      rfl
    | false =>
      rw [run_eq_runWith hsettings colors hc₁ hc₂] at h
      rw [run_eq_runWith hsettings' colors (hcompletions ▸ hc₁) (hlistRules ▸ hc₂)]
      exact runWith_of_tightens hc hs hleast hleast' hrank { files } hkept h

/-- Tightening the filters of a run surfaces nothing: the run reports part of what it reported
before, in the same order, and if it exits with 1, it did so before. -/
theorem tightening_surfaces_nothing (c c' : CommandLine) (hc : c'.AgreesBesidesFilters c)
    (s s' : Settings) (hs : s'.Tightens s) (least least' : Confidence)
    (hleast : Confidence.parse c.minConfidence = .ok least)
    (hleast' : Confidence.parse c'.minConfidence = .ok least')
    (hrank : least.rank ≤ least'.rank) (files : FileTree) (hkept : KeepsBaseline c files)
    (colors : Bool) :
    (∀ p : Project, (reportedBy c' colors s' least' p { files }).Sublist
        (reportedBy c colors s least p { files })) ∧
      (exitCode ((runWith c' colors s').run { files }).1 = 1 →
        exitCode ((runWith c colors s).run { files }).1 = 1) ∧
      ∀ words words', CommandLine.parse words = .ok c → CommandLine.parse words' = .ok c' →
        c.settings files = .ok s → c'.settings files = .ok s' →
        (program words' colors files).exitCode = 1 →
        (program words colors files).exitCode = 1 := by
  refine ⟨reportedBy_sublist hc hs hrank { files } { files } rfl hkept colors, ?_, ?_⟩
  · intro hexit
    rw [exitCode_eq_one_iff] at hexit ⊢
    exact fun h => hexit (runWith_of_tightens hc hs hleast hleast' hrank { files } hkept h)
  · intro words words' hwords hwords' hsettings hsettings' hexit
    rw [program_exitCode hwords', exitCode_eq_one_iff] at hexit
    rw [program_exitCode hwords, exitCode_eq_one_iff]
    exact fun h =>
      hexit (run_of_tightens hc hs hleast hleast' hrank hkept hsettings hsettings' h)

end Runs

/-! A project with a job service and a baseline. Both runs save another baseline beside it; the
tighter one leaves out the rule about job services and reports what is certain only. -/

/-- The files of the project. -/
def serviceTree : FileTree :=
  { top := .directory
      [("old.json", .file (some "\x7b\"version\": 1, \"entries\": []\x7d")),
        ("Sync.java",
          .file (some "class Sync extends JobService \x7b Queue q = new Queue(); \x7d"))]
    here := [] }

/-- The looser command line. -/
def looserLine : CommandLine :=
  { baseline := some ⟨"old.json"⟩, generateBaseline := some ⟨"new.json"⟩ }

/-- The tighter command line. -/
def tighterLine : CommandLine :=
  { looserLine with disable := ["BC001"], minConfidence := "high" }

theorem keepsBaseline_looserLine : KeepsBaseline looserLine serviceTree := by
  intro path hpath target htarget found files' hsave
  cases hpath
  cases htarget
  -- the new baseline is a file of its own, beside the old one
  have hplace : serviceTree.placeOf ⟨"new.json"⟩ = .ok ["new.json"] := rfl
  rw [Baseline.save, FileTree.write_eq, hplace] at hsave
  cases hsave
  rfl

theorem tightening_surfaces_nothing_tighterLine :
    looserLine.settings serviceTree = .ok {} ∧
      tighterLine.settings serviceTree = .ok { rules := { disabled := ["BC001"] } } ∧
      (∀ p : Project,
        (reportedBy tighterLine false { rules := { disabled := ["BC001"] } } .high p
            { files := serviceTree }).Sublist
          (reportedBy looserLine false {} .low p { files := serviceTree })) ∧
      ((program ["--baseline", "old.json", "--generate-baseline", "new.json", "--disable", "BC001",
            "--min-confidence", "high"] false serviceTree).exitCode = 1 →
        (program ["--baseline", "old.json", "--generate-baseline", "new.json"] false
            serviceTree).exitCode = 1) := by
  have hsettings : looserLine.settings serviceTree = .ok {} := rfl
  have hsettings' : tighterLine.settings serviceTree =
      .ok { rules := { disabled := ["BC001"] } } := rfl
  have htightens : Settings.Tightens { rules := { disabled := ["BC001"] } } {} :=
    .of_lists (s := {}) (List.nil_subset _) (.inl rfl)
  obtain ⟨hpart, -, hprogram⟩ :=
    tightening_surfaces_nothing looserLine tighterLine rfl {} _ htightens
    .low .high rfl rfl (by decide) serviceTree keepsBaseline_looserLine false
  exact ⟨hsettings, hsettings', hpart, hprogram _ _ rfl rfl hsettings hsettings'⟩

end AdLint
