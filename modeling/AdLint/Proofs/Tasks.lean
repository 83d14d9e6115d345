import AdLint.Sources

/-!
# Reading files side by side

The tasks that read the files of a project finish in any order, and each keeps its result in a place
of its own. Whatever the order, once all of them have finished the place of a file holds what
reading that file gives, and the results are merged by place. So the project is the one that reading
the files one after the other makes up. Either way the project is the merge of the outlines that can
be read: a file without one leaves no trace in it.

## Main results

* `Project.getElem?_foldl_finishTask`: the results after some tasks have finished
* `Project.foldl_finishTask_eq_map`: the results after all tasks have finished
* `Project.ofFiles_eq_foldl_merge`: reading one file after the other merges the outlines that can be
  read
* `Project.parallel_eq_sequential`: both ways give one project, and a file that fails leaves it as
  it was
-/

namespace AdLint.Project

variable (t : FileTree) (files : List Path)

/-! ## Results of tasks -/

@[simp] theorem length_finishTask (results : List (Option Outline)) (number : Nat) :
    (finishTask t files results number).length = results.length :=
  List.length_set

/-- A task that finishes fills its own place and no other. -/
theorem getElem?_finishTask (results : List (Option Outline)) (number place : Nat) :
    (finishTask t files results number)[place]? =
      if place = number ∧ place < results.length then
        some (files[place]?.bind (readOutline? t))
      else results[place]? := by
  unfold finishTask
  rw [List.getElem?_set]
  by_cases hplace : number = place
  · subst hplace
    by_cases hlt : number < results.length
    · simp [hlt]
    · simp [hlt]
  · rw [if_neg hplace, if_neg fun h => hplace h.1.symm]

/-- The results after some tasks have finished: a place whose task is among them is filled, and the
others are as they were. -/
theorem getElem?_foldl_finishTask (order : List Nat) (results : List (Option Outline))
    (place : Nat) :
    (order.foldl (finishTask t files) results)[place]? =
      if place ∈ order ∧ place < results.length then
        some (files[place]?.bind (readOutline? t))
      else results[place]? := by
  -- the tasks finish from the front of `order`, each on the results of those before it
  induction order generalizing results with
  | nil => simp
  | cons number order ih =>
    rw [List.foldl_cons, ih, length_finishTask, getElem?_finishTask]
    by_cases hlater : place ∈ order
    · by_cases hlt : place < results.length
      · rw [if_pos ⟨hlater, hlt⟩, if_pos ⟨List.mem_cons_of_mem number hlater, hlt⟩]
      · rw [if_neg fun h => hlt h.2, if_neg fun h => hlt h.2, if_neg fun h => hlt h.2]
    · simp only [hlater, false_and, if_false, List.mem_cons, or_false]

/-- The results after all tasks have finished are those of the files, in the order of the files. -/
theorem foldl_finishTask_eq_map {order : List Nat}
    (horder : ∀ place < files.length, place ∈ order) :
    order.foldl (finishTask t files) (List.replicate files.length none) =
      files.map (readOutline? t) := by
  apply List.ext_getElem?
  intro place
  rw [getElem?_foldl_finishTask, List.length_replicate, List.getElem?_map]
  by_cases hplace : place < files.length
  · rw [if_pos ⟨horder place hplace, hplace⟩, List.getElem?_eq_getElem hplace]
    rfl
  · rw [if_neg fun h => hplace h.2, List.getElem?_eq_none (Nat.le_of_not_lt hplace),
      List.getElem?_eq_none (by simpa using Nat.le_of_not_lt hplace), Option.map_none]

/-! ## Both ways of reading -/

/-- Reading one file after the other merges the outlines of those that can be read. -/
theorem ofFiles_eq_foldl_merge :
    ofFiles t files = (files.filterMap (readOutline? t)).foldl merge {} := by
  unfold ofFiles
  rw [List.foldl_filterMap]
  congr 1
  funext p path
  unfold addFrom
  cases readOutline? t path <;> rfl

theorem ofTasks_eq_ofFiles {order : List Nat} (horder : ∀ place < files.length, place ∈ order) :
    ofTasks t files order = ofFiles t files := by
  unfold ofTasks
  dsimp only
  rw [foldl_finishTask_eq_map t files horder, ofFiles_eq_foldl_merge, List.filterMap_map]
  rfl

/-- A file that cannot be read, or whose text has no outline, leaves the project as it is. -/
theorem addFrom_of_failure (p : Project) {path : Path}
    (h : ∀ text, t.read path = .ok text → ∃ reason, outlineOf path text = .error reason) :
    addFrom t p path = p := by
  have hnone : readOutline? t path = none := by
    unfold readOutline?
    cases hread : t.read path with
    | error cause => rfl
    | ok text =>
      obtain ⟨reason, hreason⟩ := h text hread
      dsimp only
      rw [hreason]
      rfl
  rw [addFrom, hnone]

/-- Files that are read by tasks make up the project that they make up one after the other, in
whatever order the tasks finish. A file that fails leaves a project as it was, and so does a
source. -/
theorem parallel_eq_sequential :
    (∀ order : List Nat, order.Perm (List.range files.length) →
        ofTasks t files order = ofFiles t files) ∧
      (∀ (p : Project) (path : Path),
        (∀ text, t.read path = .ok text → ∃ reason, outlineOf path text = .error reason) →
          addFrom t p path = p) ∧
      ∀ (p : Project) (skipped : List (Path × SkipReason)) (path : Path) (text : String)
        (reason : SkipReason), outlineOf path text = .error reason →
          addSource (p, skipped) (path, text) = (p, skipped ++ [(path, reason)]) := by
  refine ⟨fun order horder => ?_, fun p path h => addFrom_of_failure t p h, ?_⟩
  · refine ofTasks_eq_ofFiles t files fun place hplace => ?_
    exact horder.symm.subset (List.mem_range.mpr hplace)
  · intro p skipped path text reason hreason
    unfold addSource
    dsimp only
    rw [hreason]

/-! A project with a class, a manifest that breaks off and a file that is not there, read by tasks
of which the last one finishes first. -/

/-- The files of the project. -/
def brokenTree : FileTree :=
  { top := .directory
      [("A.java", .file (some "class A \x7b\x7d")),
        ("AndroidManifest.xml", .file (some "<manifest"))]
    here := [] }

theorem parallel_eq_sequential_brokenTree :
    [2, 0, 1].Perm (List.range 3) ∧
      ofTasks brokenTree [⟨"A.java"⟩, ⟨"AndroidManifest.xml"⟩, ⟨"B.kt"⟩] [2, 0, 1] =
        ofFiles brokenTree [⟨"A.java"⟩, ⟨"AndroidManifest.xml"⟩, ⟨"B.kt"⟩] ∧
      outlineOf ⟨"AndroidManifest.xml"⟩ "<manifest" = .error (.markup .unclosed) ∧
      (∀ p, addFrom brokenTree p ⟨"AndroidManifest.xml"⟩ = p) ∧
      ∀ p, addSource (p, []) (⟨"AndroidManifest.xml"⟩, "<manifest") =
        (p, [(⟨"AndroidManifest.xml"⟩, .markup .unclosed)]) := by
  have horder : [2, 0, 1].Perm (List.range 3) := by decide
  have hfails : outlineOf ⟨"AndroidManifest.xml"⟩ "<manifest" = .error (.markup .unclosed) := rfl
  have hread : brokenTree.read ⟨"AndroidManifest.xml"⟩ = .ok "<manifest" := rfl
  obtain ⟨hproject, hfile, hsource⟩ :=
    parallel_eq_sequential brokenTree [⟨"A.java"⟩, ⟨"AndroidManifest.xml"⟩, ⟨"B.kt"⟩]
  refine ⟨horder, hproject _ horder, hfails, fun p => hfile p _ fun text htext => ?_,
    fun p => hsource p [] _ _ _ hfails⟩
  rw [hread] at htext
  cases htext
  exact ⟨_, hfails⟩

end AdLint.Project
