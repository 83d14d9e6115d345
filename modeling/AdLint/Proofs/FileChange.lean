import AdLint.Proofs.FileShape
import Mathlib.Data.List.Basic

/-!
# Written files

A run writes at most two files, and what it reads besides them is as it was. Here this is made
precise: a tree is the other one with files written at some places, if it has the same kinds of
nodes with the same texts under all other names, and if listings differ under the names of the
written files only. A place that is written was no directory. So a path leads where it led before,
unless it leads to a written file: the nodes on its way are directories, and those are the same in
both trees.

## Main definitions

* `FileNode.Takes`: a file can be put under names
* `FileTree.WrittenAt`: one tree is another one with files written at some places

## Main results

* `FileTree.WrittenAt.trans`: written files add up
* `FileTree.write_ok`: a written text is there, and nothing else has changed
* `FileTree.WrittenAt.locate_back`: a path that does not lead to a written file leads where it led
  before
* `FileTree.WrittenAt.toOption_read`: a file that is not among the written ones reads as before
* `FileTree.placeOf_of_locate`: a path that leads to a file can be written
-/

namespace AdLint

theorem Text.pieces_ne_nil {α : Type} [BEq α] (sep : α) (xs : List α) :
    Text.pieces sep xs ≠ [] := by
  cases xs with
  | nil => exact List.cons_ne_nil _ _
  | cons x xs =>
    rw [Text.pieces]
    split
    · exact List.cons_ne_nil _ _
    · split <;> exact List.cons_ne_nil _ _

namespace FileNode

/-! ## Putting a file into a tree -/

/-- A file can be put under names: they lead to no directory, and all but the last lead to one. -/
def Takes (node : FileNode) (place : List String) : Prop :=
  place ≠ [] ∧ node.kindAt place.dropLast = some true ∧ node.kindAt place ≠ some true

theorem get?_file_cons (text : Option String) (name : String) (names : List String) :
    (file text).get? (name :: names) = none := rfl

theorem kindAt_cons (node : FileNode) (name : String) (names : List String) :
    node.kindAt (name :: names) = (node.child? name).bind fun child => child.kindAt names := by
  unfold kindAt
  rw [get?]
  cases node.child? name <;> rfl

theorem eq_directory_of_kindAt_nil {node : FileNode} (h : node.kindAt [] = some true) :
    node = directory node.children := by
  cases node with
  | file text => cases h
  | directory children => rfl

theorem get?_append (node : FileNode) (names more : List String) :
    node.get? (names ++ more) = (node.get? names).bind fun found => found.get? more := by
  induction names generalizing node with
  | nil => rfl
  | cons name names ih =>
    rw [List.cons_append, get?, get?]
    cases node.child? name with
    | none => rfl
    | some child => exact ih child

/-- On the way to a node there are directories only. -/
theorem kindAt_of_append {node : FileNode} {names more : List String} (hmore : more ≠ [])
    {kind : Bool} (h : node.kindAt (names ++ more) = some kind) :
    node.kindAt names = some true := by
  obtain ⟨name, more, rfl⟩ := List.exists_cons_of_ne_nil hmore
  unfold kindAt at h ⊢
  rw [get?_append] at h
  cases hfound : node.get? names with
  | none => simp [hfound] at h
  | some found =>
    cases found with
    | directory children => rfl
    | file text => simp [hfound, get?_file_cons] at h

theorem Takes.child {node : FileNode} {name next : String} {place : List String}
    (h : node.Takes (name :: next :: place)) :
    ∃ child, node.child? name = some child ∧ child.Takes (next :: place) := by
  obtain ⟨-, hparent, hplace⟩ := h
  rw [List.dropLast_cons_of_ne_nil (List.cons_ne_nil _ _), kindAt_cons] at hparent
  obtain ⟨child, hchild, hparent⟩ := Option.bind_eq_some_iff.mp hparent
  rw [kindAt_cons, hchild, Option.bind_some] at hplace
  exact ⟨child, hchild, List.cons_ne_nil _ _, hparent, hplace⟩

theorem Takes.child?_eq {node : FileNode} {name : String} (h : node.Takes [name]) :
    node.child? name = none ∨ ∃ text, node.child? name = some (file text) := by
  have hkind := h.2.2
  rw [kindAt_cons] at hkind
  cases hchild : node.child? name with
  | none => exact .inl rfl
  | some child =>
    cases child with
    | file text => exact .inr ⟨text, rfl⟩
    | directory children => exact absurd (by rw [hchild]; rfl) hkind

theorem Takes.isDirectory {node : FileNode} {place : List String} (h : node.Takes place) :
    node = directory node.children := by
  obtain ⟨hne, hparent, -⟩ := h
  refine eq_directory_of_kindAt_nil ?_
  cases hrest : place.dropLast with
  | nil => rwa [hrest] at hparent
  | cons name rest =>
    have hbelow : node.kindAt ([] ++ name :: rest) = some true := hrest ▸ hparent
    exact kindAt_of_append (List.cons_ne_nil name rest) hbelow

theorem get?_directory_setChild_cons (name : String) (child : FileNode)
    (children : List (String × FileNode)) (other : String) (names : List String) :
    (directory (setChild name child children)).get? (other :: names) =
      if name = other then child.get? names else (directory children).get? (other :: names) := by
  rw [get?, child?_directory_setChild, get?]
  split <;> rfl

/-- On the way to the place, the file is put into the nodes that were there. -/
theorem get?_put_append {node found : FileNode} {names : List String}
    (h : node.get? names = some found)
    (new : FileNode) (more : List String) :
    (node.put new (names ++ more)).get? names = some (found.put new more) := by
  induction names generalizing node with
  | nil =>
    cases h
    rfl
  | cons name names ih =>
    rw [get?] at h
    obtain ⟨child, hchild, hfound⟩ := Option.bind_eq_some_iff.mp h
    rw [List.cons_append, put, get?_directory_setChild_cons, if_pos rfl, hchild, Option.getD_some]
    exact ih hfound

/-- Off the way, nothing changes. -/
theorem get?_put_off_way {node : FileNode} {place names : List String} (h : node.Takes place)
    (hnames : ¬ names <+: place) (text : Option String) :
    (node.put (.file text) place).get? names = node.get? names := by
  induction place generalizing node names with
  | nil => exact absurd rfl h.1
  | cons name place ih =>
    cases names with
    | nil => exact absurd List.nil_prefix hnames
    | cons other names =>
      rw [put, get?_directory_setChild_cons]
      split
      case isFalse => rw [← h.isDirectory]
      case isTrue heq =>
        subst heq
        rw [List.cons_prefix_cons, not_and] at hnames
        have hoff := hnames rfl
        cases place with
        | nil =>
          -- below a file there is nothing, and there was no directory before
          obtain ⟨name', names, rfl⟩ := List.exists_cons_of_ne_nil fun hnil =>
              hoff (hnil ▸ List.nil_prefix)
          rw [put, get?_file_cons, get?]
          rcases h.child?_eq with hchild | ⟨old, hchild⟩ <;> rw [hchild] <;> rfl
        | cons next place =>
          obtain ⟨child, hchild, htakes⟩ := h.child
          rw [hchild, Option.getD_some, ih htakes hoff, get?, hchild, Option.bind_some]

theorem get?_put_self (node new : FileNode) (place : List String) :
    (node.put new place).get? place = some new := by
  induction place generalizing node with
  | nil => rfl
  | cons name place ih => rw [put, get?_directory_setChild_cons, if_pos rfl, ih]

/-! ## Listings -/

/-- A change of one child that does not show in its own listing does not show in the listing of its
directory. A child that was not there counts as an empty directory. -/
theorem filesIn_setChild (name : String) (new : FileNode) (children : List (String × FileNode))
    (p : List String → Bool)
    (h : new.files.filter (fun names => p (name :: names)) =
      (((directory children).child? name).getD (directory [])).files.filter fun names =>
        p (name :: names)) :
    (filesIn (setChild name new children)).filter p = (filesIn children).filter p := by
  have hmap (child : FileNode) : (child.files.map (name :: ·)).filter p =
      (child.files.filter fun names => p (name :: names)).map (name :: ·) := by
    rw [List.filter_map]
    rfl
  induction children with
  | nil =>
    rw [setChild, filesIn, filesIn, filesIn, List.append_nil, hmap, h]
    rfl
  | cons first rest ih =>
    obtain ⟨other, child⟩ := first
    rw [setChild]
    by_cases heq : other = name
    · subst heq
      have hfirst : (directory ((other, child) :: rest)).child? other = some child := by
        simp [child?, FileNode.children]
      rw [hfirst, Option.getD_some] at h
      rw [if_pos (beq_self_eq_true other), filesIn, filesIn, List.filter_append,
        List.filter_append, hmap, hmap, h]
    · have hrest :
          (directory ((other, child) :: rest)).child? name = (directory rest).child? name := by
        simp [child?, FileNode.children, heq]
      rw [hrest] at h
      rw [if_neg (by simpa using heq), filesIn, filesIn, List.filter_append,
        List.filter_append, ih h]

/-- A file that is put somewhere shows in the listing under its own names only. -/
theorem files_put {node : FileNode} {place : List String} (h : node.Takes place)
    (text : Option String)
    (p : List String → Bool) (hp : p place = false) :
    (node.put (.file text) place).files.filter p = node.files.filter p := by
  induction place generalizing node p with
  | nil => exact absurd rfl h.1
  | cons name place ih =>
    have hnode : node.files = filesIn node.children := by
      rw [h.isDirectory, files]
      rfl
    rw [put, files, hnode]
    refine filesIn_setChild name _ _ p ?_
    rw [← h.isDirectory]
    cases place with
    | nil =>
      rw [put, files]
      rcases h.child?_eq with hchild | ⟨old, hchild⟩ <;> simp [hchild, files, filesIn, hp]
    | cons next place =>
      obtain ⟨child, hchild, htakes⟩ := h.child
      rw [hchild, Option.getD_some]
      exact ih htakes (fun names => p (name :: names)) hp

/-! ## What a put file changes -/

/-- The files at and below the node that names lead to. -/
def filesAt (node : FileNode) (names : List String) : List (List String) :=
  match node.get? names with
  | some found => found.files
  | none => []

/-- What the file that names lead to holds, if they lead to a file. -/
def textAt (node : FileNode) (names : List String) : Option (Option String) :=
  match node.get? names with
  | some (file text) => some text
  | _ => none

theorem Takes.kindAt_of_append {node : FileNode} {names more : List String}
    (h : node.Takes (names ++ more))
    (hmore : more ≠ []) : node.kindAt names = some true := by
  obtain ⟨-, hparent, -⟩ := h
  rw [List.dropLast_append_of_ne_nil hmore] at hparent
  by_cases hlast : more.dropLast = []
  · rwa [hlast, List.append_nil] at hparent
  · exact FileNode.kindAt_of_append hlast hparent

/-- The node on the way to a place takes the rest of the way. -/
theorem Takes.of_append {node found : FileNode} {names more : List String}
    (h : node.Takes (names ++ more))
    (hfound : node.get? names = some found) (hmore : more ≠ []) : found.Takes more := by
  obtain ⟨-, hparent, hplace⟩ := h
  rw [List.dropLast_append_of_ne_nil hmore, kindAt, get?_append, hfound] at hparent
  rw [kindAt, get?_append, hfound] at hplace
  exact ⟨hmore, hparent, hplace⟩

section Put

variable {node : FileNode} {place : List String} (h : node.Takes place) (text : Option String)

include h

/-- Under other names, the same kinds of nodes hold the same texts. -/
theorem entry_put {names : List String} (hnames : names ≠ place) :
    (node.put (.file text) place).kindAt names = node.kindAt names ∧
      (node.put (.file text) place).textAt names = node.textAt names := by
  by_cases hprefix : names <+: place
  · -- a directory on the way stays a directory
    obtain ⟨more, rfl⟩ := hprefix
    have hmore : more ≠ [] := fun hnil => hnames (by rw [hnil, List.append_nil])
    obtain ⟨children, hfound⟩ := kindAt_eq_some_true_iff.mp (h.kindAt_of_append hmore)
    have hput := get?_put_append hfound (.file text) more
    obtain ⟨name, more, rfl⟩ := List.exists_cons_of_ne_nil hmore
    rw [put] at hput
    unfold kindAt textAt
    rw [hput, hfound]
    exact ⟨rfl, rfl⟩
  · unfold kindAt textAt
    rw [get?_put_off_way h hprefix]
    exact ⟨rfl, rfl⟩

/-- The listing below any node changes under the names of the file only. -/
theorem filesAt_put (names : List String) :
    ((node.put (.file text) place).filesAt names).filter (fun more => names ++ more ≠ place) =
      (node.filesAt names).filter fun more => names ++ more ≠ place := by
  unfold filesAt
  by_cases hprefix : names <+: place
  · obtain ⟨more, rfl⟩ := hprefix
    by_cases hmore : more = []
    · subst hmore
      rw [List.append_nil, get?_put_self]
      have hold := h.2.2
      rw [List.append_nil] at hold
      cases hfound : node.get? names with
      | none => simp [files]
      | some found =>
        cases found with
        | file old => simp [files]
        | directory children => exact absurd (kindAt_of_get?_some hfound) hold
    · obtain ⟨children, hfound⟩ := kindAt_eq_some_true_iff.mp (h.kindAt_of_append hmore)
      rw [get?_put_append hfound, hfound]
      exact files_put (h.of_append hfound hmore) text _ (by simp)
  · rw [get?_put_off_way h hprefix]

end Put

end FileNode

namespace FileTree

open FileNode

/-! ## Trees with written files -/

/-- The second tree is the first one with files written at the given places. Nothing else is
different, and no place was a directory. -/
structure WrittenAt (places : List (List String)) (t u : FileTree) : Prop where
  here : u.here = t.here
  kinds : ∀ names, names ∉ places → u.top.kindAt names = t.top.kindAt names
  texts : ∀ names, names ∉ places → u.top.textAt names = t.top.textAt names
  before : ∀ names ∈ places, t.top.kindAt names ≠ some true
  after : ∀ names ∈ places, u.top.kindAt names = some false
  listing : ∀ names, (u.top.filesAt names).filter (fun more => names ++ more ∉ places) =
    (t.top.filesAt names).filter fun more => names ++ more ∉ places

namespace WrittenAt

theorem refl (t : FileTree) : WrittenAt [] t t := by
  constructor <;> simp

theorem trans {places more : List (List String)} {t u v : FileTree} (h : WrittenAt places t u)
    (h' : WrittenAt more u v) : WrittenAt (places ++ more) t v := by
  refine ⟨h'.here.trans h.here, ?_, ?_, ?_, ?_, ?_⟩
  · intro names hnames
    rw [List.mem_append, not_or] at hnames
    exact (h'.kinds names hnames.2).trans (h.kinds names hnames.1)
  · intro names hnames
    rw [List.mem_append, not_or] at hnames
    exact (h'.texts names hnames.2).trans (h.texts names hnames.1)
  · intro names hnames
    by_cases hold : names ∈ places
    · exact h.before names hold
    · rw [← h.kinds names hold]
      exact h'.before names ((List.mem_append.mp hnames).resolve_left hold)
  · intro names hnames
    by_cases hnew : names ∈ more
    · exact h'.after names hnew
    · rw [h'.kinds names hnew]
      exact h.after names ((List.mem_append.mp hnames).resolve_right hnew)
  · intro names
    have hsplit (listed : List (List String)) :
        listed.filter (fun rest => names ++ rest ∉ places ++ more) =
          (listed.filter fun rest => names ++ rest ∉ more).filter fun rest =>
            names ++ rest ∉ places := by
      rw [List.filter_filter]
      refine List.filter_congr fun rest _ => ?_
      simp [not_or]
    have hswap (listed : List (List String)) :
        (listed.filter fun rest => names ++ rest ∉ more).filter (fun rest =>
          names ++ rest ∉ places) =
          (listed.filter fun rest => names ++ rest ∉ places).filter fun rest =>
            names ++ rest ∉ more := by
      rw [List.filter_filter, List.filter_filter]
      exact List.filter_congr fun rest _ => Bool.and_comm _ _
    rw [hsplit, h'.listing, hswap, h.listing, ← hswap, ← hsplit]

theorem put {t : FileTree} {place : List String} (h : t.top.Takes place) (text : String) :
    WrittenAt [place] t { t with top := t.top.put (.file (some text)) place } := by
  refine ⟨rfl, ?_, ?_, ?_, ?_, ?_⟩
  · intro names hnames
    exact (entry_put h _ (List.mem_singleton.not.mp hnames)).1
  · intro names hnames
    exact (entry_put h _ (List.mem_singleton.not.mp hnames)).2
  · intro names hnames
    exact List.mem_singleton.mp hnames ▸ h.2.2
  · intro names hnames
    rw [List.mem_singleton.mp hnames]
    exact kindAt_of_get?_some (get?_put_self _ _ _)
  · intro names
    simpa using filesAt_put h (some text) names

section Kinds

variable {places : List (List String)} {t u : FileTree} (h : WrittenAt places t u)

include h

theorem kindAt_eq_some_true_iff {names : List String} :
    u.top.kindAt names = some true ↔ t.top.kindAt names = some true := by
  by_cases hnames : names ∈ places
  · simp [h.before names hnames, h.after names hnames]
  · rw [h.kinds names hnames]

theorem isSome_kindAt {names : List String} (hsome : (t.top.kindAt names).isSome = true) :
    (u.top.kindAt names).isSome = true := by
  by_cases hnames : names ∈ places
  · rw [h.after names hnames]
    rfl
  · rwa [h.kinds names hnames]

end Kinds

end WrittenAt

/-! ## Where paths lead -/

/-- What a step that leads somewhere tells. -/
theorem follow_eq_ok_iff {t : FileTree} {names : List String} {segment : String}
    {next : List String} :
    t.follow names segment = .ok next ↔
      t.top.kindAt names = some true ∧
        if segment = "" ∨ segment = "." then next = names
        else if segment = ".." then next = names.dropLast
        else (t.top.kindAt (names ++ [segment])).isSome = true ∧ next = names ++ [segment] := by
  rw [follow_eq]
  rcases t.top.kindAt names with _ | _ | _
  · simp
  · simp
  · simp only [Bool.or_eq_true, beq_iff_eq, true_and]
    split
    · simp [eq_comm]
    · split
      · simp [eq_comm]
      · cases (t.top.kindAt (names ++ [segment])).isSome <;> simp [eq_comm]

/-- The name of the file that a path leads to. -/
def lastName (path : Path) : String := (Text.splitAt '/' path.text).getLastD ""

/-- A path can be written if its last segment is a name in a directory, and not the name of a
directory. -/
theorem placeOf_eq_ok_iff {t : FileTree} {path : Path} {place : List String} :
    t.placeOf path = .ok place ↔
      ∃ parent, (Text.splitAt '/' path.text).dropLast.foldlM t.follow (t.origin path) = .ok parent ∧
        t.top.kindAt parent = some true ∧ path.text ≠ "" ∧
        (lastName path ≠ "" ∧ lastName path ≠ "." ∧ lastName path ≠ "..") ∧
        t.top.kindAt (parent ++ [lastName path]) ≠ some true ∧
        place = parent ++ [lastName path] := by
  unfold placeOf
  dsimp only
  rw [← lastName]
  generalize (Text.splitAt '/' path.text).dropLast.foldlM t.follow (t.origin path) = walked
  cases walked with
  | error e => simp [bind, Except.bind]
  | ok parent =>
    simp only [bind, Except.bind, Except.ok.injEq, exists_eq_left', Bool.or_eq_true, beq_iff_eq]
    rcases t.top.kindAt parent with _ | _ | _
    · simp
    · simp
    · dsimp only
      by_cases htext : path.text = ""
      · simp [htext]
      · rw [if_neg htext]
        by_cases hname : (lastName path = "" ∨ lastName path = ".") ∨ lastName path = ".."
        · rw [if_pos hname]
          simp only [reduceCtorEq, false_iff]
          tauto
        · rw [if_neg hname]
          by_cases hold : t.top.kindAt (parent ++ [lastName path]) = some true
          · simp [hold]
          · rw [if_neg hold, Except.ok.injEq]
            tauto

namespace WrittenAt

variable {places : List (List String)} {t u : FileTree} (h : WrittenAt places t u)

include h

theorem follow_ok {names next : List String} {segment : String}
    (hstep : t.follow names segment = .ok next) :
    u.follow names segment = .ok next := by
  rw [follow_eq_ok_iff] at hstep ⊢
  obtain ⟨hdirectory, hnext⟩ := hstep
  refine ⟨h.kindAt_eq_some_true_iff.mpr hdirectory, ?_⟩
  split
  · rwa [if_pos ‹_›] at hnext
  · rw [if_neg ‹_›] at hnext
    split
    · rwa [if_pos ‹_›] at hnext
    · rw [if_neg ‹_›] at hnext
      exact ⟨h.isSome_kindAt hnext.1, hnext.2⟩

theorem follow_back {names next : List String} {segment : String}
    (hstep : u.follow names segment = .ok next)
    (hnext : next ∉ places) : t.follow names segment = .ok next := by
  rw [follow_eq_ok_iff] at hstep ⊢
  obtain ⟨hdirectory, hend⟩ := hstep
  refine ⟨h.kindAt_eq_some_true_iff.mp hdirectory, ?_⟩
  split
  · rwa [if_pos ‹_›] at hend
  · rw [if_neg ‹_›] at hend
    split
    · rwa [if_pos ‹_›] at hend
    · rw [if_neg ‹_›] at hend
      refine ⟨?_, hend.2⟩
      rw [← h.kinds _ (hend.2 ▸ hnext)]
      exact hend.1

theorem foldlM_ok {segments names next : List String}
    (hwalk : segments.foldlM t.follow names = .ok next) :
    segments.foldlM u.follow names = .ok next := by
  induction segments generalizing names with
  | nil => exact hwalk
  | cons segment segments ih =>
    rw [List.foldlM_cons] at hwalk ⊢
    cases hstep : t.follow names segment with
    | error e =>
      rw [hstep] at hwalk
      cases hwalk
    | ok middle =>
      rw [hstep] at hwalk
      rw [h.follow_ok hstep]
      exact ih hwalk

theorem foldlM_back {segments names next : List String}
    (hwalk : segments.foldlM u.follow names = .ok next) (hnext : next ∉ places) :
    segments.foldlM t.follow names = .ok next := by
  induction segments generalizing names with
  | nil => exact hwalk
  | cons segment segments ih =>
    rw [List.foldlM_cons] at hwalk ⊢
    cases hstep : u.follow names segment with
    | error e =>
      rw [hstep] at hwalk
      cases hwalk
    | ok middle =>
      rw [hstep] at hwalk
      have hmiddle : middle ∉ places := by
        cases segments with
        | nil =>
          cases hwalk
          exact hnext
        | cons following segments =>
          -- the walk goes on from there, so it is a directory and was not written
          intro hmem
          have hfile := h.after middle hmem
          simp only [bind, Except.bind, List.foldlM_cons] at hwalk
          rw [follow_eq, hfile] at hwalk
          cases hwalk
      rw [h.follow_back hstep hmiddle]
      exact ih hwalk

theorem origin_eq (path : Path) : u.origin path = t.origin path := by
  unfold origin
  rw [h.here]

theorem locate_ok {path : Path} {place : List String} (hplace : t.locate path = .ok place) :
    u.locate path = .ok place := by
  unfold locate at hplace ⊢
  split
  · rwa [if_pos ‹_›] at hplace
  · rw [if_neg ‹_›] at hplace
    rw [h.origin_eq]
    exact h.foldlM_ok hplace

/-- A path that does not lead to a written file leads where it led before. -/
theorem locate_back {path : Path} {place : List String} (hplace : u.locate path = .ok place)
    (hother : place ∉ places) : t.locate path = .ok place := by
  unfold locate at hplace ⊢
  split
  · rwa [if_pos ‹_›] at hplace
  · rw [if_neg ‹_›, h.origin_eq] at hplace
    exact h.foldlM_back hplace hother

theorem placeOf_ok {path : Path} {place : List String} (hplace : t.placeOf path = .ok place) :
    u.placeOf path = .ok place := by
  rw [placeOf_eq_ok_iff] at hplace ⊢
  obtain ⟨parent, hwalk, hdirectory, htext, hname, hold, heq⟩ := hplace
  refine ⟨parent, ?_, h.kindAt_eq_some_true_iff.mpr hdirectory, htext, hname, ?_, heq⟩
  · rw [h.origin_eq]
    exact h.foldlM_ok hwalk
  · rwa [Ne, h.kindAt_eq_some_true_iff]

end WrittenAt

/-! ## Reading and writing -/

theorem read_eq_ok_iff {t : FileTree} {path : Path} {text : String} :
    t.read path = .ok text ↔
      ∃ place, t.locate path = .ok place ∧ t.top.textAt place = some (some text) := by
  unfold read textAt
  cases t.locate path with
  | error e => simp [bind, Except.bind]
  | ok place =>
    simp only [bind, Except.bind, Except.ok.injEq, exists_eq_left']
    rcases t.top.get? place with _ | (_ | _) | _ <;> simp

theorem isFile_iff {t : FileTree} {path : Path} :
    t.isFile path = true ↔
      ∃ place, t.locate path = .ok place ∧ t.top.kindAt place = some false := by
  unfold isFile node? kindAt
  cases t.locate path with
  | error e => simp
  | ok place =>
    simp only [Except.ok.injEq, exists_eq_left']
    cases t.top.get? place <;> simp

/-- A path walks to its parent first and takes its last segment then. -/
theorem locate_eq_ok_iff {t : FileTree} {path : Path} {place : List String} :
    t.locate path = .ok place ↔
      path.text ≠ "" ∧ ∃ parent,
        (Text.splitAt '/' path.text).dropLast.foldlM t.follow (t.origin path) = .ok parent ∧
          t.follow parent (lastName path) = .ok place := by
  have hsplit : Text.splitAt '/' path.text =
      (Text.splitAt '/' path.text).dropLast ++ [lastName path] := by
    have hne : Text.splitAt '/' path.text ≠ [] := by
      rw [Text.splitAt, ne_eq, List.map_eq_nil_iff]
      exact Text.pieces_ne_nil '/' _
    rw [lastName, List.getLastD_eq_getLast?, List.getLast?_eq_some_getLast hne, Option.getD_some,
      List.dropLast_append_getLast hne]
  unfold locate
  by_cases htext : path.text = ""
  · simp [htext]
  · rw [if_neg (by simpa using htext), hsplit, List.foldlM_append, List.dropLast_concat]
    cases (Text.splitAt '/' path.text).dropLast.foldlM t.follow (t.origin path) with
    | error e => simp [bind, Except.bind]
    | ok parent =>
      simp only [bind, Except.bind, List.foldlM_cons, List.foldlM_nil, ne_eq, htext,
        not_false_eq_true, true_and, Except.ok.injEq, exists_eq_left']
      cases t.follow parent (lastName path) <;> rfl

/-- A path that leads to a file can be written, and writing it puts the text in that file. -/
theorem placeOf_of_locate {t : FileTree} {path : Path} {place : List String}
    (hplace : t.locate path = .ok place) (hfile : t.top.kindAt place = some false) :
    t.placeOf path = .ok place := by
  obtain ⟨htext, parent, hwalk, hstep⟩ := locate_eq_ok_iff.mp hplace
  obtain ⟨hdirectory, hnext⟩ := follow_eq_ok_iff.mp hstep
  have hup : t.top.kindAt parent.dropLast = some true := by
    rcases List.eq_nil_or_concat' parent with rfl | ⟨names, name, rfl⟩
    · exact hdirectory
    · rw [List.dropLast_concat]
      exact kindAt_of_append (List.cons_ne_nil name []) hdirectory
  have hfalse : t.top.kindAt place ≠ some true := by simp [hfile]
  -- a segment that stays or goes up leads to a directory
  split at hnext
  · exact absurd (hnext ▸ hdirectory) hfalse
  · split at hnext
    · exact absurd (hnext ▸ hup) hfalse
    · obtain ⟨-, rfl⟩ := hnext
      rw [placeOf_eq_ok_iff]
      refine ⟨parent, hwalk, hdirectory, htext, ?_, hfalse, rfl⟩
      tauto

/-- A path that was written leads to the file. -/
theorem locate_of_placeOf {t : FileTree} {path : Path} {place : List String}
    (hplace : t.placeOf path = .ok place) (hthere : (t.top.kindAt place).isSome = true) :
    t.locate path = .ok place := by
  obtain ⟨parent, hwalk, hdirectory, htext, hname, -, rfl⟩ := placeOf_eq_ok_iff.mp hplace
  refine locate_eq_ok_iff.mpr ⟨htext, parent, hwalk, follow_eq_ok_iff.mpr ⟨hdirectory, ?_⟩⟩
  rw [if_neg (by tauto), if_neg hname.2.2]
  exact ⟨hthere, rfl⟩

theorem takes_of_placeOf {t : FileTree} {path : Path} {place : List String}
    (hplace : t.placeOf path = .ok place) : t.top.Takes place := by
  obtain ⟨parent, -, hdirectory, -, -, hold, rfl⟩ := placeOf_eq_ok_iff.mp hplace
  refine ⟨by simp, ?_, hold⟩
  rwa [List.dropLast_concat]

/-- **A written text is there,** and nothing else has changed. -/
theorem write_ok {t u : FileTree} {path : Path} {text : String}
    (hwrite : t.write path text = .ok u) :
    ∃ place, t.placeOf path = .ok place ∧ WrittenAt [place] t u ∧ u.locate path = .ok place ∧
      u.read path = .ok text := by
  rw [write_eq] at hwrite
  cases hplace : t.placeOf path with
  | error e =>
    rw [hplace] at hwrite
    cases hwrite
  | ok place =>
    rw [hplace] at hwrite
    cases hwrite
    have hwritten := WrittenAt.put (takes_of_placeOf hplace) text
    have hthere := hwritten.after place List.mem_cons_self
    have hlocate := locate_of_placeOf (hwritten.placeOf_ok hplace) (by rw [hthere]; rfl)
    refine ⟨place, rfl, hwritten, hlocate, read_eq_ok_iff.mpr ⟨place, hlocate, ?_⟩⟩
    unfold textAt
    rw [get?_put_self]

namespace WrittenAt

variable {places : List (List String)} {t u : FileTree} (h : WrittenAt places t u) {path : Path}

include h

/-- A file that is not among the written ones reads as before. -/
theorem toOption_read (hpath : ∀ place, u.locate path = .ok place → place ∉ places) :
    (u.read path).toOption = (t.read path).toOption := by
  have hiff (text : String) : u.read path = .ok text ↔ t.read path = .ok text := by
    rw [read_eq_ok_iff, read_eq_ok_iff]
    constructor
    · rintro ⟨place, hplace, htext⟩
      have hother := hpath place hplace
      exact ⟨place, h.locate_back hplace hother, h.texts place hother ▸ htext⟩
    · rintro ⟨place, hplace, htext⟩
      have hsame := h.locate_ok hplace
      exact ⟨place, hsame, (h.texts place (hpath place hsame)).trans htext⟩
  ext text
  cases hu : u.read path <;> cases ht : t.read path <;> simp_all [Except.toOption]

theorem read_ok {text : String} {place : List String} (hread : t.read path = .ok text)
    (hplace : t.locate path = .ok place) (hother : place ∉ places) : u.read path = .ok text := by
  obtain ⟨place', hplace', htext⟩ := read_eq_ok_iff.mp hread
  obtain rfl : place' = place := Except.ok.inj (hplace'.symm.trans hplace)
  exact read_eq_ok_iff.mpr ⟨place', h.locate_ok hplace, (h.texts place' hother).trans htext⟩

theorem isFile_of_isFile (hfile : t.isFile path = true) : u.isFile path = true := by
  obtain ⟨place, hplace, hkind⟩ := isFile_iff.mp hfile
  refine isFile_iff.mpr ⟨place, h.locate_ok hplace, ?_⟩
  by_cases hnames : place ∈ places
  · exact h.after place hnames
  · rwa [h.kinds place hnames]

theorem isFile_back (hfile : u.isFile path = true)
    (hpath : ∀ place, u.locate path = .ok place → place ∉ places) : t.isFile path = true := by
  obtain ⟨place, hplace, hkind⟩ := isFile_iff.mp hfile
  have hother := hpath place hplace
  exact isFile_iff.mpr ⟨place, h.locate_back hplace hother, h.kinds place hother ▸ hkind⟩

end WrittenAt

end FileTree

end AdLint
