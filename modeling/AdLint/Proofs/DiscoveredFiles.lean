import AdLint.Proofs.Footprint
import AdLint.Proofs.Order
import AdLint.Proofs.Portability
import AdLint.Proofs.Record
import Mathlib.Data.List.Sort

/-!
# The files that are found

The files of a project are gathered target by target, sorted, and thinned out where neighbours are
the same path. Targets may overlap, so one file can be met through several texts, such as `a/A.java`
and `a/./A.java`. Thinning out neighbours is enough because paths that are the same compare as
equal, and a sort brings them together. What is left is strictly increasing. A strictly increasing
list is determined by what stands in it, up to how a path is written, so the order of the targets
and their repetition do not show.

In a tree whose directories list each name once, the paths that are found lead to the files they
were found for: a walk names a file by joining the names on the way to its target.

## Main definitions

* `IsTarget`: where a search starts
* `FileNode.WellNamed`: every directory lists names that a path can lead through, each once

## Main results

* `ascending_mergeNeighbours`, `exists_same_mem_mergeNeighbours`: thinning out a sorted list
* `components_eq_of_ascending`: a strictly increasing list is determined by what stands in it
* `FileTree.isFile_of_mem_walk`: a walk yields files
* `discovered_files_exact`: which files are found, in which order
-/

namespace AdLint

open Std

/-! ## Neighbours that are the same path -/

theorem mergeNeighbours_sublist (ps : List Path) : (mergeNeighbours ps).Sublist ps := by
  induction ps with
  | nil => exact List.Sublist.refl []
  | cons p rest ih =>
    rw [mergeNeighbours]
    cases hrest : mergeNeighbours rest with
    | nil => exact (List.nil_sublist rest).cons_cons p
    | cons q others =>
      rw [hrest] at ih
      dsimp only
      split
      · exact ((List.sublist_cons_self q others).trans ih).cons_cons p
      · exact ih.cons_cons p

/-- Of every path, one that is the same is kept. -/
theorem exists_same_mem_mergeNeighbours {ps : List Path} {p : Path} (hp : p ∈ ps) :
    ∃ q ∈ mergeNeighbours ps, q.same p = true := by
  induction ps with
  | nil => exact absurd hp List.not_mem_nil
  | cons first rest ih =>
    rw [mergeNeighbours]
    cases hrest : mergeNeighbours rest with
    | nil =>
      rcases List.mem_cons.mp hp with rfl | hp
      · exact ⟨p, List.mem_singleton_self p, Path.same_refl p⟩
      · obtain ⟨q, hq, -⟩ := ih hp
        rw [hrest] at hq
        exact absurd hq List.not_mem_nil
    | cons next others =>
      rw [hrest] at ih
      dsimp only
      rcases List.mem_cons.mp hp with rfl | hp
      · refine ⟨p, ?_, Path.same_refl p⟩
        split <;> exact List.mem_cons_self
      · obtain ⟨q, hq, hqp⟩ := ih hp
        split
        · next hsame =>
          rcases List.mem_cons.mp hq with rfl | hq
          · -- the first path now stands for the one that stood for `p`
            have hfirst := (Path.same_iff.mp hsame).trans (Path.same_iff.mp hqp)
            exact ⟨first, List.mem_cons_self, Path.same_iff.mpr hfirst⟩
          · exact ⟨q, List.mem_cons_of_mem first hq, hqp⟩
        · exact ⟨q, List.mem_cons_of_mem first hq, hqp⟩

/-- **A sorted list becomes strictly increasing.** -/
theorem ascending_mergeNeighbours {ps : List Path} (h : ps.Pairwise fun p q => (p.compare q).isLE) :
    (mergeNeighbours ps).Pairwise fun p q => p.compare q = .lt := by
  induction h with
  | nil => exact List.Pairwise.nil
  | @cons p rest hp hrest ih =>
    have hmem := (mergeNeighbours_sublist rest).subset
    rw [mergeNeighbours]
    cases hmerged : mergeNeighbours rest with
    | nil => exact List.pairwise_singleton _ p
    | cons q others =>
      rw [hmerged] at ih hmem
      obtain ⟨hq, hothers⟩ := List.pairwise_cons.mp ih
      dsimp only
      split
      · next hsame =>
        have heq : p.compare q = .eq := Path.compare_eq_iff.mpr (Path.same_iff.mp hsame)
        refine List.pairwise_cons.mpr ⟨fun r hr => ?_, hothers⟩
        rw [TransCmp.congr_left heq, hq r hr]
      · next hsame =>
        have hlt : p.compare q = .lt :=
          Path.compare_eq_lt_of_isLE (hp q (hmem List.mem_cons_self)) (mt Path.same_iff.mpr hsame)
        refine List.pairwise_cons.mpr ⟨fun r hr => ?_, ih⟩
        rcases List.mem_cons.mp hr with rfl | hr
        · exact hlt
        · exact TransCmp.lt_trans hlt (hq r hr)

/-- **A strictly increasing list is determined by what stands in it,** up to how paths are
written. -/
theorem components_eq_of_ascending {ps qs : List Path}
    (hps : ps.Pairwise fun p q => p.compare q = .lt)
    (hqs : qs.Pairwise fun p q => p.compare q = .lt)
    (h : ∀ p, (∃ r ∈ ps, r.same p = true) ↔ ∃ r ∈ qs, r.same p = true) :
    ps.map Path.components = qs.map Path.components := by
  let before : List Component → List Component → Prop :=
    fun as bs => Path.compareComponents as bs = .lt
  have hirrefl : Std.Irrefl before := by
    dsimp only [before]
    rw [Path.compareComponents_eq_lex]
    exact ⟨fun as hlt => absurd (ReflCmp.compare_self.symm.trans hlt) (by decide)⟩
  have hantisymm : Std.Antisymm before := by
    dsimp only [before]
    rw [Path.compareComponents_eq_lex]
    exact ⟨fun as bs hab hba => absurd ((OrientedCmp.gt_iff_lt.mpr hab).symm.trans hba) (by decide)⟩
  have hordered {xs : List Path} (hxs : xs.Pairwise fun p q => p.compare q = .lt) :
      (xs.map Path.components).Pairwise before := List.pairwise_map.mpr hxs
  have hmem {xs : List Path} {components : List Component} :
      components ∈ xs.map Path.components ↔ ∃ r ∈ xs, r.components = components := List.mem_map
  refine List.Pairwise.eq_of_mem_iff (hordered hps) (hordered hqs) fun components => ?_
  have hstands {xs : List Path} (p : Path) (hp : p.components = components) :
      components ∈ xs.map Path.components ↔ ∃ r ∈ xs, r.same p = true := by
    simp only [hmem, Path.same_iff, hp]
  constructor
  · intro hcomponents
    obtain ⟨p, -, hp⟩ := hmem.mp hcomponents
    exact (hstands p hp).mpr ((h p).mp ((hstands p hp).mp hcomponents))
  · intro hcomponents
    obtain ⟨p, -, hp⟩ := hmem.mp hcomponents
    exact (hstands p hp).mpr ((h p).mpr ((hstands p hp).mp hcomponents))

/-! ## The files of a tree -/

/-- A name that a path can lead through. -/
def IsEntryName (name : String) : Prop :=
  name ≠ "" ∧ name ≠ "." ∧ name ≠ ".." ∧ '/' ∉ name.toList

namespace FileNode

/-- Every directory lists names that a path can lead through, each once. -/
structure WellNamed (node : FileNode) : Prop where
  distinct : ∀ names children, node.get? names = some (directory children) →
    (children.map Prod.fst).Nodup
  entry : ∀ names children, node.get? names = some (directory children) →
    ∀ child ∈ children, IsEntryName child.1

theorem wellNamed_file (text : Option String) : (file text).WellNamed where
  distinct names children h := by cases names <;> cases h
  entry names children h := by cases names <;> cases h

theorem wellNamed_directory {children : List (String × FileNode)}
    (hdistinct : (children.map Prod.fst).Nodup) (hentry : ∀ child ∈ children, IsEntryName child.1)
    (hbelow : ∀ child ∈ children, child.2.WellNamed) : (directory children).WellNamed := by
  have hget {name : String} {names : List String} {found : FileNode}
      (h : (directory children).get? (name :: names) = some found) :
      ∃ child ∈ children, child.2.get? names = some found := by
    obtain ⟨node, hnode, hfound⟩ := Option.bind_eq_some_iff.mp h
    obtain ⟨child, hchild, rfl⟩ := Option.map_eq_some_iff.mp hnode
    exact ⟨child, List.mem_of_find?_eq_some hchild, hfound⟩
  constructor
  · intro names found h
    cases names with
    | nil => cases h; exact hdistinct
    | cons name names =>
      obtain ⟨child, hchild, hfound⟩ := hget h
      exact (hbelow child hchild).distinct names found hfound
  · intro names found h
    cases names with
    | nil => cases h; exact hentry
    | cons name names =>
      obtain ⟨child, hchild, hfound⟩ := hget h
      exact (hbelow child hchild).entry names found hfound

theorem mem_filesIn_iff {children : List (String × FileNode)} {names : List String} :
    names ∈ filesIn children ↔
      ∃ child ∈ children, ∃ rest ∈ child.2.files, names = child.1 :: rest := by
  induction children with
  | nil => simp [filesIn]
  | cons first others ih =>
    obtain ⟨name, child⟩ := first
    simp only [filesIn, List.mem_append, List.mem_map, ih, List.mem_cons, exists_eq_or_imp, eq_comm]

theorem child?_of_mem {children : List (String × FileNode)}
    (hdistinct : (children.map Prod.fst).Nodup)
    {child : String × FileNode} (hchild : child ∈ children) :
    (directory children).child? child.1 = some child.2 := by
  unfold child? FileNode.children
  have hfind : children.find? (fun other => other.1 == child.1) = some child := by
    induction children with
    | nil => exact absurd hchild List.not_mem_nil
    | cons first others ih =>
      rw [List.map_cons, List.nodup_cons] at hdistinct
      rcases List.mem_cons.mp hchild with rfl | hothers
      · exact List.find?_cons_of_pos (beq_self_eq_true _)
      · have hne : first.1 ≠ child.1 := fun heq =>
          hdistinct.1 (heq ▸ List.mem_map_of_mem hothers)
        rw [List.find?_cons_of_neg (by simpa using hne)]
        exact ih hdistinct.2 hothers
  rw [hfind, Option.map_some]

theorem WellNamed.of_get? {node found : FileNode} (h : node.WellNamed) {names : List String}
    (hfound : node.get? names = some found) : found.WellNamed where
  distinct more children hmore :=
    h.distinct (names ++ more) children
      (by rw [FileNode.get?_append, hfound, Option.bind_some, hmore])
  entry more children hmore :=
    h.entry (names ++ more) children (by rw [FileNode.get?_append, hfound, Option.bind_some, hmore])

/-- The listing of a node leads to files. -/
theorem WellNamed.kindAt_of_mem_files {node : FileNode} (h : node.WellNamed) {names : List String}
    (hnames : names ∈ node.files) : node.kindAt names = some false := by
  induction names generalizing node with
  | nil =>
    cases node with
    | file text => rfl
    | directory children =>
      rw [files, mem_filesIn_iff] at hnames
      obtain ⟨child, -, rest, -, hnil⟩ := hnames
      cases hnil
  | cons name names ih =>
    cases node with
    | file text => simp [files] at hnames
    | directory children =>
      rw [files, mem_filesIn_iff] at hnames
      obtain ⟨child, hchild, rest, hrest, hcons⟩ := hnames
      obtain ⟨rfl, rfl⟩ := List.cons.inj hcons
      have hfound := child?_of_mem (h.distinct [] children rfl) hchild
      have hget : (directory children).get? [child.1] = some child.2 := by
        rw [get?, hfound]
        rfl
      rw [kindAt_cons, hfound, Option.bind_some]
      exact ih (h.of_get? hget) hrest

theorem WellNamed.kindAt_of_mem_filesAt {node : FileNode} (h : node.WellNamed)
    {place names : List String}
    (hnames : names ∈ node.filesAt place) : node.kindAt (place ++ names) = some false := by
  unfold filesAt at hnames
  cases hfound : node.get? place with
  | none =>
    rw [hfound] at hnames
    exact absurd hnames List.not_mem_nil
  | some found =>
    rw [hfound] at hnames
    rw [kindAt, FileNode.get?_append, hfound, Option.bind_some]
    exact (h.of_get? hfound).kindAt_of_mem_files hnames

/-- A name on the way to a node is one that a path can lead through. -/
theorem WellNamed.isEntryName {node : FileNode} (h : node.WellNamed) {place rest : List String}
    {name : String} {kind : Bool} (hkind : node.kindAt (place ++ name :: rest) = some kind) :
    IsEntryName name := by
  obtain ⟨children, hchildren⟩ := kindAt_eq_some_true_iff.mp
    (kindAt_of_append (List.cons_ne_nil name rest) hkind)
  rw [kindAt, FileNode.get?_append, hchildren, Option.bind_some, get?, child?] at hkind
  cases hfind : children.find? fun other => other.1 == name with
  | none => simp [FileNode.children, hfind] at hkind
  | some child =>
    have hname := List.find?_some hfind
    rw [beq_iff_eq] at hname
    exact hname ▸ h.entry place children hchildren child (List.mem_of_find?_eq_some hfind)

end FileNode

theorem Text.pieces_of_not_mem {sep : Char} {cs : List Char} (h : sep ∉ cs) :
    Text.pieces sep cs = [cs] := by
  induction cs with
  | nil => rfl
  | cons c cs ih =>
    rw [List.mem_cons, not_or] at h
    rw [Text.pieces, if_neg (by simpa using Ne.symm h.1), ih h.2]

namespace IsEntryName

variable {name : String} (h : IsEntryName name)

include h

theorem segments_eq : (⟨name⟩ : Path).segments = [name.toList] := Text.pieces_of_not_mem h.2.2.2

theorem ofSegment_eq : Path.ofSegment name.toList = some (.named name) := by
  obtain ⟨hempty, hdot, hdots, -⟩ := h
  have hvoid : ¬ (name.toList.isEmpty || name.toList == ['.']) = true := by
    rw [Bool.or_eq_true, List.isEmpty_iff, beq_iff_eq]
    rintro (hname | hname)
    · exact hempty (String.toList_injective hname)
    · exact hdot (String.toList_injective hname)
  have hup : ¬ (name.toList == ['.', '.']) = true := by
    rw [beq_iff_eq]
    exact fun hname => hdots (String.toList_injective hname)
  rw [Path.ofSegment, if_neg hvoid, if_neg hup, String.ofList_toList]

theorem isPlain : (⟨name⟩ : Path).IsPlain := by
  have hvoid : Path.isVoid name.toList = false := by rw [Path.isVoid, h.ofSegment_eq]; rfl
  have hcomponents : (⟨name⟩ : Path).components = [.named name] := by
    rw [Path.components, Path.parts_eq_beginning, h.segments_eq, Path.beginning_of_not_void hvoid]
    simp [h.ofSegment_eq]
  refine ⟨by simp [hcomponents], fun c hc => ⟨name, ?_⟩⟩
  rw [hcomponents] at hc
  exact List.mem_singleton.mp hc

end IsEntryName

namespace FileTree

variable {t : FileTree}

theorem locate_eq_foldlM {path : Path} (h : path.text ≠ "") :
    t.locate path = (path.segments.map String.ofList).foldlM t.follow (t.origin path) :=
  if_neg (by simpa using h)

theorem foldlM_singleton (names : List String) (segment : String) :
    [segment].foldlM t.follow names = t.follow names segment := by
  rw [List.foldlM_cons]
  cases t.follow names segment <;> rfl

theorem origin_join {name : String} (hname : IsEntryName name) {directory : Path}
    (h : directory.text ≠ "") : t.origin (directory.join ⟨name⟩) = t.origin directory := by
  obtain ⟨c, cs, hcs⟩ : ∃ c cs, directory.text.toList = c :: cs :=
    List.exists_cons_of_ne_nil fun hnil => h (String.toList_injective hnil)
  have hfirst : (directory.join ⟨name⟩).isAbsolute = directory.isAbsolute := by
    rw [Path.join, if_neg (by simp [hname.isPlain.isAbsolute_eq_false])]
    split <;> simp [Path.isAbsolute, hcs]
  rw [origin, origin, hfirst]

/-- A name in a directory is joined to a path that leads to the directory. -/
theorem locate_join {name : String} (hname : IsEntryName name) {directory : Path}
    {place : List String}
    (hplace : t.locate directory = .ok place) (hkind : t.top.kindAt place = some true)
    (hthere : (t.top.kindAt (place ++ [name])).isSome = true) :
    t.locate (directory.join ⟨name⟩) = .ok (place ++ [name]) := by
  have htext : directory.text ≠ "" := (locate_eq_ok_iff.mp hplace).1
  have hjoined : (directory.join ⟨name⟩).text ≠ "" := by
    rw [Path.join, if_neg (by simp [hname.isPlain.isAbsolute_eq_false])]
    split <;> simp [htext]
  obtain ⟨before, tail, hsegments, hdirectory, htail⟩ :=
    hname.isPlain.exists_segments_join directory
  rw [locate_eq_foldlM htext, hdirectory, List.map_append, List.foldlM_append] at hplace
  rw [locate_eq_foldlM hjoined, hsegments, hname.segments_eq, List.map_append, List.foldlM_append,
    origin_join hname htext]
  cases hwalk : (before.map String.ofList).foldlM t.follow (t.origin directory) with
  | error e =>
    rw [hwalk] at hplace
    cases hplace
  | ok reached =>
    rw [hwalk] at hplace
    change (tail.map String.ofList).foldlM t.follow reached = .ok place at hplace
    -- a slash at the end of the directory leads nowhere else
    obtain rfl : reached = place := by
      rcases htail with rfl | ⟨rfl, -⟩
      · rw [List.map_singleton, foldlM_singleton] at hplace
        exact ((follow_eq_ok_iff.mp hplace).2).symm
      · exact Except.ok.inj hplace
    change [String.ofList name.toList].foldlM t.follow reached = .ok (reached ++ [name])
    rw [foldlM_singleton, String.ofList_toList, follow_eq_ok_iff,
      if_neg (by simp [hname.1, hname.2.1]), if_neg hname.2.2.1]
    exact ⟨hkind, hthere, rfl⟩

/-- **The path that a walk gives to an entry leads to the entry.** -/
theorem locate_foldl_join (ht : t.top.WellNamed) {names : List String} {target : Path}
    {place : List String}
    (hplace : t.locate target = .ok place) {kind : Bool}
    (hkind : t.top.kindAt (place ++ names) = some kind) :
    t.locate (names.foldl (fun p name => p.join ⟨name⟩) target) = .ok (place ++ names) := by
  induction names generalizing target place with
  | nil => simpa using hplace
  | cons name names ih =>
    have hnext : place ++ name :: names = (place ++ [name]) ++ names := by simp
    have hdirectory := FileNode.kindAt_of_append (List.cons_ne_nil name names) hkind
    have hthere : (t.top.kindAt (place ++ [name])).isSome = true := by
      rw [hnext] at hkind
      cases names with
      | nil => rw [List.append_nil] at hkind; rw [hkind]; rfl
      | cons next names => rw [FileNode.kindAt_of_append (List.cons_ne_nil next names) hkind]; rfl
    rw [hnext] at hkind ⊢
    exact ih (locate_join (ht.isEntryName (hnext ▸ hkind)) hplace hdirectory hthere) hkind

/-- **A walk yields files.** -/
theorem isFile_of_mem_walk (ht : t.top.WellNamed) {project target p : Path}
    {exclusions : List IgnoreRule}
    (hp : p ∈ walk t project exclusions target) : t.isFile p = true := by
  cases hplace : t.locate target with
  | error e =>
    rw [walk_of_error hplace] at hp
    exact absurd hp List.not_mem_nil
  | ok place =>
    cases hinput : target.same ⟨"-"⟩ with
    | true =>
      rw [walk_of_input hinput] at hp
      exact absurd hp List.not_mem_nil
    | false =>
      rw [walk_eq_filesAt hplace hinput] at hp
      obtain ⟨names, hnames, rfl⟩ := List.mem_map.mp hp
      have hfile := ht.kindAt_of_mem_filesAt (List.mem_filter.mp hnames).1
      exact isFile_iff.mpr ⟨place ++ names, locate_foldl_join ht hplace hfile, hfile⟩

end FileTree

/-! ## Where a search starts -/

/-- Where the search for the files of a project starts: at the project if no targets are given, and
else at each given target that exists. -/
inductive IsTarget (t : FileTree) (s : Settings) (project : Path) : Path → Prop
  | project (hnone : s.targets = []) : IsTarget t s project project
  | given {written : Path} (hgiven : written ∈ s.targets)
      (hexists : (t.node? (project.join written)).isSome = true) :
      IsTarget t s project (project.join written)

theorem mem_targetsOf_iff {t : FileTree} {s : Settings} {project target : Path} :
    target ∈ targetsOf t s project ↔ IsTarget t s project target := by
  unfold targetsOf
  constructor
  · intro hmem
    split at hmem
    · next hnone =>
      rw [List.mem_singleton.mp hmem]
      exact .project (List.isEmpty_iff.mp hnone)
    · obtain ⟨hmem, hexists⟩ := List.mem_filter.mp hmem
      obtain ⟨written, hgiven, rfl⟩ := List.mem_map.mp hmem
      exact .given hgiven hexists
  · rintro (hnone | ⟨hgiven, hexists⟩)
    · rw [if_pos (List.isEmpty_iff.mpr hnone)]
      exact List.mem_singleton_self project
    · rw [if_neg fun hnone => List.ne_nil_of_mem hgiven (List.isEmpty_iff.mp hnone)]
      exact List.mem_filter.mpr ⟨List.mem_map_of_mem hgiven, hexists⟩

theorem IsTarget.congr {t : FileTree} {s s' : Settings} {project target : Path}
    (h : ∀ written, written ∈ s'.targets ↔ written ∈ s.targets)
    (htarget : IsTarget t s project target) :
    IsTarget t s' project target := by
  cases htarget with
  | project hnone =>
    refine .project (List.eq_nil_iff_forall_not_mem.mpr fun written hwritten => ?_)
    rw [h, hnone] at hwritten
    exact List.not_mem_nil hwritten
  | given hgiven hexists => exact .given ((h _).mpr hgiven) hexists

/-! ## What is found -/

theorem FileKind.ofPath?_congr {p q : Path} (h : p.same q = true) : ofPath? p = ofPath? q := by
  have hname : p.fileName? = q.fileName? := by
    rw [Path.fileName?, Path.fileName?, Path.same_iff.mp h]
  rw [ofPath?, ofPath?, Path.extension?, Path.extension?, hname]

/-- The files of kinds that are read that the walks from all targets yield. -/
def supportedFiles (t : FileTree) (s : Settings) (project : Path) (exclusions : List IgnoreRule) :
    List Path :=
  ((targetsOf t s project).flatMap (walk t project exclusions)).filter fun path =>
    (FileKind.ofPath? path).isSome

section Discover

variable {t : FileTree} {s : Settings} {project p : Path} {exclusions : List IgnoreRule}
    {found : List Path}

theorem mem_supportedFiles_iff :
    p ∈ supportedFiles t s project exclusions ↔
      (FileKind.ofPath? p).isSome = true ∧
        ∃ target, IsTarget t s project target ∧ p ∈ walk t project exclusions target := by
  rw [supportedFiles, List.mem_filter, List.mem_flatMap, and_comm]
  simp only [mem_targetsOf_iff]

variable (h : exclusionsOf s = .ok exclusions)

include h

variable (t project) in
theorem discover_of_exclusionsOf :
    discover t s project =
      .ok (mergeNeighbours ((supportedFiles t s project exclusions).mergeSort fun p q =>
        (p.compare q).isLE)) := by
  rw [discover, h]
  rfl

variable (hfound : discover t s project = .ok found)

include hfound

theorem mem_supportedFiles_of_discover (hp : p ∈ found) :
    p ∈ supportedFiles t s project exclusions := by
  rw [discover_of_exclusionsOf t project h] at hfound
  cases hfound
  exact List.mem_mergeSort.mp ((mergeNeighbours_sublist _).subset hp)

theorem ascending_discover : found.Pairwise fun p q => p.compare q = .lt := by
  rw [discover_of_exclusionsOf t project h] at hfound
  cases hfound
  exact ascending_mergeNeighbours (IsStableSort.mergeSort _).ordered

/-- A path is found if and only if it is of a kind that is read and a walk yields it. -/
theorem exists_same_mem_discover_iff (p : Path) :
    (∃ q ∈ found, q.same p = true) ↔
      (FileKind.ofPath? p).isSome = true ∧
        ∃ target, IsTarget t s project target ∧
          ∃ q ∈ walk t project exclusions target, q.same p = true := by
  constructor
  · rintro ⟨q, hq, hqp⟩
    obtain ⟨hkind, target, htarget, hwalk⟩ :=
      mem_supportedFiles_iff.mp (mem_supportedFiles_of_discover h hfound hq)
    exact ⟨FileKind.ofPath?_congr hqp ▸ hkind, target, htarget, q, hwalk, hqp⟩
  · rintro ⟨hkind, target, htarget, q, hwalk, hqp⟩
    have hmem : q ∈ supportedFiles t s project exclusions :=
      mem_supportedFiles_iff.mpr ⟨FileKind.ofPath?_congr hqp ▸ hkind, target, htarget, hwalk⟩
    rw [discover_of_exclusionsOf t project h] at hfound
    cases hfound
    obtain ⟨r, hr, hrq⟩ := exists_same_mem_mergeNeighbours (List.mem_mergeSort.mpr hmem)
    exact ⟨r, hr, Path.same_iff.mpr ((Path.same_iff.mp hrq).trans (Path.same_iff.mp hqp))⟩

/-- The order in which targets are given and their repetition do not show in what is found. -/
theorem components_discover_eq {s' : Settings} (hexclude : s'.exclude = s.exclude)
    (htargets : ∀ written, written ∈ s'.targets ↔ written ∈ s.targets) :
    ∃ found', discover t s' project = .ok found' ∧
      found'.map Path.components = found.map Path.components := by
  have h' : exclusionsOf s' = .ok exclusions := by rw [← h, exclusionsOf, exclusionsOf, hexclude]
  have hfound' := discover_of_exclusionsOf t project h'
  refine ⟨_, hfound', components_eq_of_ascending (ascending_discover h' hfound')
    (ascending_discover h hfound) fun p => ?_⟩
  have hsame (target : Path) : IsTarget t s' project target ↔ IsTarget t s project target :=
    ⟨IsTarget.congr fun written => (htargets written).symm, IsTarget.congr htargets⟩
  rw [exists_same_mem_discover_iff h' hfound', exists_same_mem_discover_iff h hfound]
  simp only [hsame]

end Discover

/-- **Which files are found.** If the exclusions can be read, the search succeeds. What it finds is
strictly increasing and so without repetition, and each path is of a kind that is read, is yielded
by a walk, and leads to a file. A path is found, in some writing, if and only if it is of such a
kind and the walk from some target yields it. So targets in another order, or given more than once,
lead to the same paths, up to how they are written. -/
theorem discovered_files_exact (t : FileTree) (s : Settings) (project : Path)
    {exclusions : List IgnoreRule}
    (h : exclusionsOf s = .ok exclusions) :
    ∃ found, discover t s project = .ok found ∧
      found.Pairwise (fun p q => p.compare q = .lt ∧ p.same q = false) ∧
      (∀ p ∈ found, (FileKind.ofPath? p).isSome = true ∧
        (∃ target, IsTarget t s project target ∧ p ∈ walk t project exclusions target) ∧
        (t.top.WellNamed → t.isFile p = true)) ∧
      (∀ p, (∃ q ∈ found, q.same p = true) ↔
        (FileKind.ofPath? p).isSome = true ∧
          ∃ target, IsTarget t s project target ∧
            ∃ q ∈ walk t project exclusions target, q.same p = true) ∧
      ∀ s' : Settings, s'.exclude = s.exclude →
        (∀ written, written ∈ s'.targets ↔ written ∈ s.targets) →
        ∃ found', discover t s' project = .ok found' ∧
          found'.map Path.components = found.map Path.components := by
  have hfound := discover_of_exclusionsOf t project h
  refine ⟨_, hfound, ?_, fun p hp => ?_, exists_same_mem_discover_iff h hfound,
    fun s' hexclude htargets => components_discover_eq h hfound hexclude htargets⟩
  · refine (ascending_discover h hfound).imp fun {p q} hlt => ⟨hlt, ?_⟩
    rw [← Bool.not_eq_true, Path.same_iff, ← Path.compare_eq_iff, hlt]
    decide
  · obtain ⟨hkind, target, htarget, hwalk⟩ :=
      mem_supportedFiles_iff.mp (mem_supportedFiles_of_discover h hfound hp)
    exact ⟨hkind, ⟨target, htarget, hwalk⟩, fun ht => FileTree.isFile_of_mem_walk ht hwalk⟩

/-- A tree with a directory inside another one. -/
def nestedTree : FileTree :=
  { top :=
      .directory
        [ ("a", .directory
            [("A.java", .file (some "")), ("b", .directory [("B.kt", .file (some ""))])]),
          ("README.md", .file (some "")) ]
    here := [] }

/-- Targets of which one lies inside another one, is given twice and written in a roundabout way,
and of which one does not exist. -/
def overlappingTargets : Settings := { targets := [⟨"a/./b"⟩, ⟨"c"⟩, ⟨"a"⟩, ⟨"a/./b"⟩] }

theorem exclusionsOf_overlappingTargets : exclusionsOf overlappingTargets = .ok [] := rfl

theorem wellNamed_nestedTree : nestedTree.top.WellNamed := by
  have hentry : ∀ name ∈ ["a", "A.java", "b", "B.kt", "README.md"], IsEntryName name := by
    simp [IsEntryName]
  have hinner : (FileNode.directory [("B.kt", .file (some ""))]).WellNamed :=
    FileNode.wellNamed_directory (by decide) (by simp [hentry]) (by simp [FileNode.wellNamed_file])
  have houter : (FileNode.directory
      [("A.java", .file (some "")), ("b", .directory [("B.kt", .file (some ""))])]).WellNamed :=
    FileNode.wellNamed_directory (by decide) (by simp [hentry])
      (by simp [FileNode.wellNamed_file, hinner])
  exact FileNode.wellNamed_directory (by decide) (by simp [hentry])
    (by simp [FileNode.wellNamed_file, houter])

theorem discovered_files_exact_overlappingTargets :
    exclusionsOf overlappingTargets = .ok [] ∧ nestedTree.top.WellNamed ∧
      supportedFiles nestedTree overlappingTargets ⟨"."⟩ [] =
        [⟨"./a/./b/B.kt"⟩, ⟨"./a/A.java"⟩, ⟨"./a/b/B.kt"⟩, ⟨"./a/./b/B.kt"⟩] ∧
      ∃ found, discover nestedTree overlappingTargets ⟨"."⟩ = .ok found ∧
        found.Pairwise (fun p q => p.compare q = .lt ∧ p.same q = false) ∧
        (∀ p ∈ found, nestedTree.isFile p = true) ∧ ∃ q ∈ found, q.same ⟨"./a//b/B.kt"⟩ = true := by
  obtain ⟨found, hfound, hordered, hkinds, hmem, -⟩ :=
    discovered_files_exact nestedTree overlappingTargets ⟨"."⟩ exclusionsOf_overlappingTargets
  have hfiles : supportedFiles nestedTree overlappingTargets ⟨"."⟩ [] =
      [⟨"./a/./b/B.kt"⟩, ⟨"./a/A.java"⟩, ⟨"./a/b/B.kt"⟩, ⟨"./a/./b/B.kt"⟩] := by
    decide +kernel
  have hwalked :
      (⟨"./a/b/B.kt"⟩ : Path) ∈ supportedFiles nestedTree overlappingTargets ⟨"."⟩ [] := by
    simp [hfiles]
  obtain ⟨-, target, htarget, hwalk⟩ := mem_supportedFiles_iff.mp hwalked
  exact ⟨exclusionsOf_overlappingTargets, wellNamed_nestedTree, hfiles, found, hfound, hordered,
    fun p hp => (hkinds p hp).2.2 wellNamed_nestedTree,
    (hmem _).mpr ⟨by decide, target, htarget, ⟨"./a/b/B.kt"⟩, hwalk, by decide⟩⟩

end AdLint
