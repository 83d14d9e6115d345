import AdLint.Proofs.FileChange
import AdLint.Proofs.Outcome
import AdLint.Proofs.Tasks

/-!
# What a run reads

A run reads the file with its settings, the ignore files on the way of its walks, and the sources
that the walks come to. Files that are written elsewhere it does not notice: it finds the same
settings, walks the same way, comes to the same sources and so to the same findings.

The proof follows the run. A walk is the delicate part, since which ignore files it reads depends on
where it goes, and where it goes depends on the ignore files. Along the names of an entry both are
settled step by step: as long as two walks have gone the same way, they have read the same files.

## Main definitions

* `Walk.Reads`: the places that a walk reads
* `CommandLine.Reads`: the places that a run reads

## Main results

* `Walk.reaches_eq`: a walk comes to the same entries
* `FileTree.WrittenAt.discover_eq`: a run finds the same files
* `FileTree.WrittenAt.survey_eq`: a run does not notice written files that it does not read
-/

namespace AdLint

/-! ## The places -/

/-- The file that the settings of a run are in, if there is one. -/
def CommandLine.settingsFile? (c : CommandLine) (t : FileTree) : Option Path :=
  match c.config with
  | some path => some path
  | none => (Settings.defaultFiles.map fun name => c.project.join ⟨name⟩).find? t.isFile

/-- The names of ignore files. -/
def ignoreNames : List String := [".ignore", ".gitignore"]

/-- The targets of a project, whether they exist or not. -/
def allTargets (s : Settings) (project : Path) : List Path :=
  if s.targets.isEmpty then [project] else s.targets.map project.join

namespace Walk

/-- Whether the walk goes into a directory below its target. -/
def enters (w : Walk) (names : List String) : Bool :=
  (List.range names.length).all fun k => !w.leavesOut (names.take (k + 1)) true

/-- The places that a walk reads: ignore files above the target and in the directories that it goes
into, and the sources that it comes to. -/
inductive Reads (w : Walk) : List String → Prop
  | ignoreAbove {k : Nat} {fileName : String} (hk : k < w.place.length)
      (hname : fileName ∈ ignoreNames) :
      Reads w (w.place.take k ++ [fileName])
  | ignoreBelow {names : List String} {fileName : String} (hnames : w.enters names = true)
      (hname : fileName ∈ ignoreNames) : Reads w (w.place ++ names ++ [fileName])
  | source {names : List String} (hnames : w.reaches names = true)
      (hkind : (FileKind.ofPath? (w.path names)).isSome = true) : Reads w (w.place ++ names)

/-- A walk of a run. -/
structure IsFor (w : Walk) (t : FileTree) (s : Settings) (project : Path) : Prop where
  tree : w.tree = t
  base : w.project = project
  exclusions : exclusionsOf s = .ok w.exclusions
  target : w.target ∈ allTargets s project
  notInput : w.target.same ⟨"-"⟩ = false
  place : t.locate w.target = .ok w.place

end Walk

/-- The places that a run reads: the file with its settings, what its walks read, and the sources
that they have found. -/
inductive CommandLine.Reads (c : CommandLine) (t : FileTree) : List String → Prop
  | settings {path : Path} {place : List String} (hpath : c.settingsFile? t = some path)
      (hplace : t.locate path = .ok place) : Reads c t place
  | walk {s : Settings} {w : Walk} {place : List String} (hs : c.settings t = .ok s)
      (hw : w.IsFor t s c.project) (hplace : w.Reads place) : Reads c t place
  | source {s : Settings} {files : List Path} {path : Path} {place : List String}
      (hs : c.settings t = .ok s) (hfiles : discover t s c.project = .ok files)
      (hpath : path ∈ files)
      (hplace : t.locate path = .ok place) : Reads c t place

/-- Below what is no directory, there is nothing but itself. -/
theorem FileNode.eq_nil_of_mem_filesAt {node : FileNode} {names more : List String}
    (h : node.kindAt names ≠ some true) (hmore : more ∈ node.filesAt names) : more = [] := by
  unfold filesAt at hmore
  unfold kindAt at h
  rcases hfound : node.get? names with _ | text | children
  · simp [hfound] at hmore
  · simpa [hfound, files] using hmore
  · simp [hfound, isDirectory] at h

/-! ## Settings -/

namespace FileTree.WrittenAt

variable {places : List (List String)} {t u : FileTree} (h : WrittenAt places t u)

include h

theorem load_settings_eq {path : Path}
    (hpath : ∀ place, u.locate path = .ok place → place ∉ places) :
    Settings.load u path = Settings.load t path := by
  have hread := h.toOption_read hpath
  unfold Settings.load
  cases hu : u.read path <;> cases ht : t.read path <;> rw [hu, ht] at hread <;> cases hread
  all_goals rfl

theorem find?_isFile_eq {paths : List Path}
    (hfound : ∀ path, paths.find? u.isFile = some path →
      ∀ place, u.locate path = .ok place → place ∉ places) :
    paths.find? u.isFile = paths.find? t.isFile := by
  induction paths with
  | nil => rfl
  | cons path paths ih =>
    cases hu : u.isFile path with
    | true =>
      have ht := h.isFile_back hu (hfound path (by rw [List.find?_cons, hu]))
      rw [List.find?_cons, List.find?_cons, hu, ht]
    | false =>
      have ht : t.isFile path = false := by
        by_contra ht
        rw [h.isFile_of_isFile (Bool.not_eq_false _ ▸ ht)] at hu
        cases hu
      rw [List.find?_cons, List.find?_cons, hu, ht]
      refine ih fun other hother => hfound other ?_
      rw [List.find?_cons, hu]
      exact hother

theorem settings_eq {c : CommandLine} (hunread : ∀ place ∈ places, ¬ c.Reads u place) :
    c.settings u = c.settings t := by
  have hfile : ∀ path, c.settingsFile? u = some path →
      ∀ place, u.locate path = .ok place → place ∉ places :=
    fun path hpath place hplace hmem => hunread place hmem (.settings hpath hplace)
  unfold CommandLine.settingsFile? at hfile
  unfold CommandLine.settings
  cases hconfig : c.config with
  | some path =>
    rw [hconfig] at hfile
    dsimp only
    rw [h.load_settings_eq (hfile path rfl)]
  | none =>
    rw [hconfig] at hfile
    dsimp only
    have hfind := h.find?_isFile_eq hfile
    unfold Settings.find
    rw [← hfind]
    cases hfound : (Settings.defaultFiles.map fun name => c.project.join ⟨name⟩).find? u.isFile with
    | none => rfl
    | some path =>
      dsimp only
      rw [h.load_settings_eq (hfile path hfound)]

end FileTree.WrittenAt

/-! ## Walks -/

namespace Walk

theorem enters_iff {w : Walk} {names : List String} :
    w.enters names = true ↔ ∀ k < names.length, w.leavesOut (names.take (k + 1)) true = false := by
  simp [enters]

theorem reaches_iff {w : Walk} {names : List String} :
    w.reaches names = true ↔
      ∀ k < names.length, w.leavesOut (names.take (k + 1)) (k + 1 < names.length) = false := by
  simp [reaches]

theorem rulesIn_eq_textAt (w : Walk) (fileName : String) (directory : List String) :
    w.rulesIn fileName directory =
      match w.tree.top.textAt (directory ++ [fileName]) with
      | some (some text) => IgnoreRule.ofFile text
      | _ => [] := by
  unfold rulesIn FileNode.textAt
  rcases w.tree.top.get? (directory ++ [fileName]) with _ | (_ | _) | _ <;> rfl

variable {w : Walk} {t : FileTree}

theorem path_of_tree (names : List String) : path { w with tree := t } names = w.path names := rfl

theorem shown_of_tree (names : List String) :
    shown { w with tree := t } names = w.shown names := rfl

/-- What is left out depends on the ignore files above the target and between it and the entry. -/
theorem leavesOut_eq {names : List String}
    (habove : ∀ fileName ∈ ignoreNames, ∀ k < w.place.length,
      rulesIn { w with tree := t } fileName (w.place.take k) = w.rulesIn fileName (w.place.take k))
    (hbelow : ∀ fileName ∈ ignoreNames, ∀ k < names.length,
      rulesIn { w with tree := t } fileName (w.place ++ names.take k) =
        w.rulesIn fileName (w.place ++ names.take k)) (isDirectory : Bool) :
    leavesOut { w with tree := t } names isDirectory = w.leavesOut names isDirectory := by
  have hverdict : ∀ fileName ∈ ignoreNames,
      verdict? { w with tree := t } fileName names isDirectory =
        w.verdict? fileName names isDirectory := by
    intro fileName hname
    unfold verdict?
    simp only [path_of_tree, shown_of_tree]
    refine congrArg (List.findSome? id) (congrArg₂ _ ?_ ?_)
    · refine List.map_congr_left fun k hk => ?_
      rw [List.mem_reverse, List.mem_range] at hk
      rw [hbelow fileName hname k hk]
    · refine List.map_congr_left fun k hk => ?_
      rw [List.mem_reverse, List.mem_range] at hk
      rw [habove fileName hname k hk]
  unfold leavesOut
  rw [hverdict ".ignore" (by simp [ignoreNames]), hverdict ".gitignore" (by simp [ignoreNames]),
    shown_of_tree]

section Written

variable {places : List (List String)} (h : FileTree.WrittenAt places t w.tree)
  (hunread : ∀ place ∈ places, ¬ w.Reads place)

include h hunread

theorem rulesIn_eq {fileName : String} {directory : List String}
    (hread : w.Reads (directory ++ [fileName])) :
    rulesIn { w with tree := t } fileName directory = w.rulesIn fileName directory := by
  have hother : directory ++ [fileName] ∉ places := fun hmem => hunread _ hmem hread
  rw [rulesIn_eq_textAt, rulesIn_eq_textAt, h.texts _ hother]

/-- Written files that a walk does not read do not change where it comes to. -/
theorem reaches_eq (names : List String) :
    reaches { w with tree := t } names = w.reaches names := by
  -- along the way: as long as both walks go on, they see the same ignore files
  have hprefix : ∀ n ≤ names.length,
      (∀ k < n, leavesOut { w with tree := t } (names.take (k + 1)) (k + 1 < names.length) =
        false) ↔ ∀ k < n, w.leavesOut (names.take (k + 1)) (k + 1 < names.length) = false := by
    intro n
    induction n with
    | zero => simp
    | succ n ih =>
      intro hn
      rw [Nat.forall_lt_succ_right, Nat.forall_lt_succ_right, ih (by omega)]
      refine and_congr_right fun hsofar => ?_
      have henters : ∀ j ≤ n, w.enters (names.take j) = true := by
        intro j hj
        refine enters_iff.mpr fun k hk => ?_
        rw [List.length_take] at hk
        have hdirectory := hsofar k (by omega)
        rw [decide_eq_true (show k + 1 < names.length by omega)] at hdirectory
        rwa [List.take_take, Nat.min_eq_left (by omega)]
      rw [leavesOut_eq (w := w)]
      · exact fun fileName hname k hk => rulesIn_eq h hunread (.ignoreAbove hk hname)
      · intro fileName hname k hk
        rw [List.length_take] at hk
        rw [List.take_take, Nat.min_eq_left (by omega)]
        exact rulesIn_eq h hunread (.ignoreBelow (henters k (by omega)) hname)
  rw [Bool.eq_iff_iff, reaches_iff, reaches_iff]
  exact hprefix names.length (Nat.le_refl _)

/-- Written files that a walk does not read do not change which sources it comes to. -/
theorem filter_filesAt_eq :
    (w.tree.top.filesAt w.place).filter
        (fun names => w.reaches names && (FileKind.ofPath? (w.path names)).isSome) =
      (t.top.filesAt w.place).filter
        fun names => w.reaches names && (FileKind.ofPath? (w.path names)).isSome := by
  have hsplit (listed : List (List String)) :
      listed.filter (fun names => w.reaches names && (FileKind.ofPath? (w.path names)).isSome) =
        (listed.filter fun names => w.place ++ names ∉ places).filter
          fun names => w.reaches names && (FileKind.ofPath? (w.path names)).isSome := by
    rw [List.filter_filter]
    refine List.filter_congr fun names _ => ?_
    by_cases hkept : (w.reaches names && (FileKind.ofPath? (w.path names)).isSome) = true
    · have hparts := Bool.and_eq_true_iff.mp hkept
      have hother : w.place ++ names ∉ places := fun hmem =>
        hunread _ hmem (.source hparts.1 hparts.2)
      rw [hkept, decide_eq_true hother]
      rfl
    · rw [Bool.eq_false_iff.mpr hkept, Bool.false_and]
  rw [hsplit (w.tree.top.filesAt w.place), h.listing, ← hsplit]

end Written

end Walk

theorem walk_eq_filesAt {t : FileTree} {project target : Path} {exclusions : List IgnoreRule}
    {place : List String} (hplace : t.locate target = .ok place)
    (htarget : target.same ⟨"-"⟩ = false) :
    walk t project exclusions target =
      ((t.top.filesAt place).filter
        (Walk.reaches { tree := t, project, exclusions, target, place })).map
        (Walk.path { tree := t, project, exclusions, target, place }) := by
  unfold walk
  rw [hplace]
  dsimp only
  rw [if_neg (by rw [htarget]; decide)]
  unfold FileNode.filesAt
  cases t.top.get? place <;> rfl

/-- The sources that a walk finds. -/
def sourcesBelow (t : FileTree) (project : Path) (exclusions : List IgnoreRule) (target : Path) :
    List Path :=
  (walk t project exclusions target).filter fun path => (FileKind.ofPath? path).isSome

theorem sourcesBelow_eq_filesAt {t : FileTree} {project target : Path}
    {exclusions : List IgnoreRule}
    {place : List String} (hplace : t.locate target = .ok place)
    (htarget : target.same ⟨"-"⟩ = false) :
    sourcesBelow t project exclusions target =
      let w : Walk := { tree := t, project, exclusions, target, place }
      ((t.top.filesAt place).filter fun names =>
        w.reaches names && (FileKind.ofPath? (w.path names)).isSome).map w.path := by
  rw [sourcesBelow, walk_eq_filesAt hplace htarget, List.filter_map, List.filter_filter]
  refine congrArg _ (List.filter_congr fun names _ => ?_)
  exact Bool.and_comm _ _

theorem walk_of_error {t : FileTree} {project target : Path} {exclusions : List IgnoreRule}
    {e : FileError} (hplace : t.locate target = .error e) :
    walk t project exclusions target = [] := by
  unfold walk
  rw [hplace]

theorem walk_of_input {t : FileTree} {project target : Path} {exclusions : List IgnoreRule}
    (htarget : target.same ⟨"-"⟩ = true) : walk t project exclusions target = [] := by
  unfold walk
  cases t.locate target with
  | error e => rfl
  | ok place =>
    dsimp only
    rw [if_pos htarget]

theorem flatMap_targetsOf (t : FileTree) (s : Settings) (project : Path)
    (exclusions : List IgnoreRule) :
    (targetsOf t s project).flatMap (walk t project exclusions) =
      (allTargets s project).flatMap (walk t project exclusions) := by
  unfold targetsOf allTargets
  split
  · rfl
  · -- a target that does not exist has nothing below it
    have hmissing :
        ∀ target, (t.node? target).isSome = false → walk t project exclusions target = [] := by
      intro target htarget
      unfold FileTree.node? at htarget
      unfold walk
      cases hplace : t.locate target with
      | error e => rfl
      | ok place =>
        rw [hplace] at htarget
        dsimp only at htarget ⊢
        rw [Option.isSome_eq_false_iff, Option.isNone_iff_eq_none] at htarget
        rw [htarget, ite_self]
    generalize s.targets.map project.join = targets
    induction targets with
    | nil => rfl
    | cons target targets ih =>
      rw [List.filter_cons, List.flatMap_cons]
      split
      · rw [List.flatMap_cons, ih]
      · rw [ih, hmissing target (Bool.eq_false_iff.mpr ‹_›), List.nil_append]

/-- The files of a project are the sources below its targets. -/
theorem discover_eq_sources (t : FileTree) (s : Settings) (project : Path) :
    discover t s project =
      (exclusionsOf s).map fun exclusions =>
        mergeNeighbours
          (((allTargets s project).flatMap (sourcesBelow t project exclusions)).mergeSort
          fun p q => (p.compare q).isLE) := by
  unfold discover
  cases exclusionsOf s with
  | error e => rfl
  | ok exclusions =>
    simp only [bind, Except.bind, Except.map]
    rw [flatMap_targetsOf, List.filter_flatMap]
    rfl

/-! ## Runs -/

namespace FileTree.WrittenAt

variable {places : List (List String)} {t u : FileTree} (h : WrittenAt places t u)

include h

/-- Written files that a run does not read do not change the sources below a target. -/
theorem sourcesBelow_eq {s : Settings} {project target : Path} {exclusions : List IgnoreRule}
    (hexclusions : exclusionsOf s = .ok exclusions) (htarget : target ∈ allTargets s project)
    (hunread : ∀ w : Walk, w.IsFor u s project → ∀ place ∈ places, ¬ w.Reads place) :
    sourcesBelow u project exclusions target = sourcesBelow t project exclusions target := by
  by_cases hinput : target.same ⟨"-"⟩ = true
  · rw [sourcesBelow, sourcesBelow, walk_of_input hinput, walk_of_input hinput]
  · rw [Bool.not_eq_true] at hinput
    cases hu : u.locate target with
    | error e =>
      cases ht : t.locate target with
      | error e' => rw [sourcesBelow, sourcesBelow, walk_of_error hu, walk_of_error ht]
      | ok place =>
        rw [h.locate_ok ht] at hu
        cases hu
    | ok place =>
      have hwalk := hunread { tree := u, project, exclusions, target, place }
        ⟨rfl, rfl, hexclusions, htarget, hinput, hu⟩
      have hlisted := Walk.filter_filesAt_eq h hwalk
      rw [sourcesBelow_eq_filesAt hu hinput]
      dsimp only
      rw [hlisted]
      cases ht : t.locate target with
      | ok place' =>
        rw [h.locate_ok ht] at hu
        cases hu
        rw [sourcesBelow_eq_filesAt ht hinput]
        dsimp only
        congr 1
        refine List.filter_congr fun names _ => ?_
        rw [← Walk.reaches_eq h hwalk names]
        rfl
      | error e =>
        -- the target itself was written; it is no source, or it would be read
        have hmem : place ∈ places := by
          by_contra hother
          rw [h.locate_back hu hother] at ht
          cases ht
        rw [sourcesBelow, walk_of_error ht, List.filter_nil, List.map_eq_nil_iff,
          List.filter_eq_nil_iff]
        intro names hnames hkept
        obtain rfl := FileNode.eq_nil_of_mem_filesAt (h.before place hmem) hnames
        have hparts := Bool.and_eq_true_iff.mp hkept
        have hread := Walk.Reads.source hparts.1 hparts.2
        rw [List.append_nil] at hread
        exact hwalk place hmem hread

/-- Written files that a run does not read do not change which files it finds. -/
theorem discover_eq {s : Settings} {project : Path}
    (hunread : ∀ w : Walk, w.IsFor u s project → ∀ place ∈ places, ¬ w.Reads place) :
    discover u s project = discover t s project := by
  rw [discover_eq_sources, discover_eq_sources]
  cases hexclusions : exclusionsOf s with
  | error e => rw [Except.map, Except.map]
  | ok exclusions =>
    have hsources : (allTargets s project).flatMap (sourcesBelow u project exclusions) =
        (allTargets s project).flatMap (sourcesBelow t project exclusions) :=
      List.flatMap_congr fun target htarget => h.sourcesBelow_eq hexclusions htarget hunread
    simp only [Except.map, hsources]

/-- Written files that are no sources of a project leave the project as it is. -/
theorem readProject_eq {c : CommandLine} {files : List Path}
    (hunread : ∀ path ∈ files, ∀ place, u.locate path = .ok place → place ∉ places) :
    readProject c u files = readProject c t files := by
  have houtline : ∀ path ∈ files, readOutline? u path = readOutline? t path := by
    intro path hpath
    have hread := h.toOption_read (hunread path hpath)
    unfold readOutline?
    cases hu : u.read path <;> cases ht : t.read path <;> rw [hu, ht] at hread <;> cases hread
    all_goals rfl
  have hrange : ∀ place < files.length, place ∈ List.range files.length :=
    fun _ => List.mem_range.mpr
  unfold readProject
  rw [Project.ofTasks_eq_ofFiles u files hrange, Project.ofTasks_eq_ofFiles t files hrange,
    Project.ofFiles_eq_foldl_merge, Project.ofFiles_eq_foldl_merge, List.filterMap_congr houtline]

/-- **A run does not notice written files that it does not read.** -/
theorem survey_eq {c : CommandLine} (hunread : ∀ place ∈ places, ¬ c.Reads u place) :
    c.survey u = c.survey t := by
  have hsettings := h.settings_eq hunread
  unfold CommandLine.survey
  cases hu : c.settings u with
  | error e => rw [← hsettings, hu]
  | ok s =>
    have hdiscover : discover u s c.project = discover t s c.project :=
      h.discover_eq fun w hw place hmem hread => hunread place hmem (.walk hu hw hread)
    rw [← hsettings, hu]
    dsimp only
    rw [← hdiscover]
    cases hfiles : discover u s c.project with
    | error e => rfl
    | ok files =>
      have hproject : readProject c u files = readProject c t files :=
        h.readProject_eq fun path hpath place hplace hmem =>
          hunread place hmem (.source hu hfiles hpath hplace)
      have hsurvey (least : Confidence) :
          c.surveyOf u s least files = c.surveyOf t s least files := by
        unfold CommandLine.surveyOf
        rw [hproject]
      simp only [hsurvey]

end FileTree.WrittenAt

end AdLint
