import AdLint.FileTree

/-!
# The shape of a file tree

Whether a text can be written to a path depends on what is a directory and what is a file, and not
on the texts that the files hold. So the shape of a tree is the kind of node that names lead to, and
trees that differ only in what was last written to one path have the same shape.

## Main definitions

* `FileNode.kindAt`: the kind of node that names lead to
* `FileTree.SameShape`: trees with the same kinds of nodes, seen from the same directory
* `FileTree.placeOf`: the names under which a path is written

## Main results

* `FileTree.write_eq`: writing puts a file under the names of its path
* `FileTree.SameShape.placeOf_eq`: these names depend on the shape only
* `FileTree.sameShape_put`: trees with different texts under the same names have the same shape
-/

namespace AdLint

namespace FileNode

/-- The kind of node that names lead to, if they lead to one: whether it is a directory. -/
def kindAt (node : FileNode) (names : List String) : Option Bool :=
  (node.get? names).map isDirectory

theorem kindAt_of_get?_none {node : FileNode} {names : List String}
    (h : node.get? names = none) : node.kindAt names = none := by
  rw [kindAt, h, Option.map_none]

theorem kindAt_of_get?_some {node found : FileNode} {names : List String}
    (h : node.get? names = some found) : node.kindAt names = some found.isDirectory := by
  rw [kindAt, h, Option.map_some]

theorem kindAt_eq_some_true_iff {node : FileNode} {names : List String} :
    node.kindAt names = some true ↔ ∃ children, node.get? names = some (directory children) := by
  unfold kindAt
  cases node.get? names with
  | none => simp
  | some found => cases found <;> simp [isDirectory]

theorem child?_directory_setChild (name : String) (child : FileNode)
    (children : List (String × FileNode)) (other : String) :
    (directory (setChild name child children)).child? other =
      if name = other then some child else (directory children).child? other := by
  unfold child? FileNode.children
  induction children with
  | nil =>
    rw [setChild, List.find?_singleton, List.find?_nil]
    by_cases h : name = other <;> simp [h]
  | cons first rest ih =>
    rw [setChild]
    by_cases hfirst : first.1 = name
    · by_cases h : name = other <;> simp_all
    · by_cases h : name = other
      · have hother : first.1 ≠ other := fun he => hfirst (he.trans h.symm)
        simp_all
      · by_cases he : first.1 = other <;> simp_all

/-- What files hold does not show in the kinds of nodes. -/
theorem kindAt_put_file (a b : Option String) (place : List String) (node : FileNode)
    (names : List String) :
    (node.put (.file a) place).kindAt names = (node.put (.file b) place).kindAt names := by
  induction place generalizing node names with
  | nil =>
    -- below a file there is nothing
    cases names with
    | nil => rfl
    | cons name names => rfl
  | cons name place ih =>
    cases names with
    | nil => rfl
    | cons other names =>
      -- the two trees differ below `name` only
      simp only [kindAt, put, get?, child?_directory_setChild]
      split
      · exact ih _ names
      · rfl

end FileNode

namespace FileTree

open FileNode

/-- Trees with the same kinds of nodes, seen from the same directory. -/
structure SameShape (t u : FileTree) : Prop where
  here : t.here = u.here
  kinds : ∀ names, t.top.kindAt names = u.top.kindAt names

theorem SameShape.refl (t : FileTree) : SameShape t t := ⟨rfl, fun _ => rfl⟩

/-- The names under which a path is written. -/
def placeOf (t : FileTree) (path : Path) : Except FileError (List String) := do
  let segments := Text.splitAt '/' path.text
  let parent ← segments.dropLast.foldlM t.follow (t.origin path)
  let name := segments.getLastD ""
  match t.top.kindAt parent with
  | some true =>
    if path.text == "" then .error .missing
    else if name == "" || name == "." || name == ".." then .error .isDirectory
    else if t.top.kindAt (parent ++ [name]) == some true then .error .isDirectory
    else .ok (parent ++ [name])
  | some false => .error .notDirectory
  | none => .error .missing

/-- Writing puts a file under the names of its path. -/
theorem write_eq (t : FileTree) (path : Path) (text : String) :
    t.write path text = (t.placeOf path).map fun place =>
      { t with top := t.top.put (.file (some text)) place } := by
  unfold write placeOf
  dsimp only
  generalize (Text.splitAt '/' path.text).getLastD "" = name
  generalize (Text.splitAt '/' path.text).dropLast.foldlM t.follow (t.origin path) = walked
  cases walked with
  | error e => rfl
  | ok parent =>
    simp only [bind, Except.bind]
    cases hparent : t.top.get? parent with
    | none => simp [kindAt_of_get?_none hparent, Except.map]
    | some node =>
      rw [kindAt_of_get?_some hparent]
      cases node with
      | file content => rfl
      | directory children =>
        dsimp only [isDirectory]
        split
        · rfl
        · split
          · rfl
          · split
            case h_1 children hold =>
              rw [kindAt_of_get?_some hold]
              rfl
            case h_2 hold =>
              -- a file that is there already is written over
              have hkind : t.top.kindAt (parent ++ [name]) ≠ some true := fun hkind =>
                (kindAt_eq_some_true_iff.mp hkind).elim hold
              simp [hkind, Except.map]

/-- Where a segment leads depends on the kinds of nodes only. -/
theorem follow_eq (t : FileTree) (names : List String) (segment : String) :
    t.follow names segment =
      match t.top.kindAt names with
      | some true =>
        if segment == "" || segment == "." then .ok names
        else if segment == ".." then .ok names.dropLast
        else if (t.top.kindAt (names ++ [segment])).isSome then .ok (names ++ [segment])
        else .error .missing
      | some false => .error .notDirectory
      | none => .error .missing := by
  unfold follow FileNode.kindAt
  cases t.top.get? names with
  | none => rfl
  | some node => cases node <;> simp [isDirectory]

theorem SameShape.follow_eq {t u : FileTree} (h : SameShape t u) : t.follow = u.follow := by
  funext names segment
  rw [FileTree.follow_eq, FileTree.follow_eq, h.kinds, h.kinds]

/-- Under which names a path is written depends on the shape only. -/
theorem SameShape.placeOf_eq {t u : FileTree} (h : SameShape t u) (path : Path) :
    t.placeOf path = u.placeOf path := by
  unfold placeOf origin
  rw [h.follow_eq, h.here]
  simp only [h.kinds]

theorem sameShape_put (t : FileTree) (place : List String) (a b : String) :
    SameShape { t with top := t.top.put (.file (some a)) place }
      { t with top := t.top.put (.file (some b)) place } :=
  ⟨rfl, kindAt_put_file (some a) (some b) place t.top⟩

end FileTree

end AdLint
