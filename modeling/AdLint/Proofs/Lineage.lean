import AdLint.FileKind
import AdLint.Proofs.JavaNesting
import AdLint.Proofs.KotlinNesting
import AdLint.Proofs.Record
import AdLint.Room.Registration
import Mathlib.Data.List.Count
import Mathlib.Order.WellFounded

/-!
# Lineage of declarations

Names are resolved by walks over the declarations of a project: outwards along parents for qualified
names and for the fields in scope, inwards along children for the fields of a registration class. No
such walk keeps track of where it has been. It ends because the declarations of every file nest: the
parent of a declaration is found, and its range is longer. This holds of whatever sources are read,
in any order and with any number of texts for one path, since an entry of the record is only ever
replaced by one on the same range.

The walks carry the number of recorded declarations as a bound. As no range is met twice, the bound
is never reached, and each walk satisfies the equation it would have without one.

## Main definitions

* `Outline.ParentsFirst`: an outline lists every declaration once, after the one it stands in
* `Project.Enclosed`: the record of a project holds a declaration around each one for its parent
* `Project.Lineal`: the declarations of a project nest, and the walks over them end

## Main results

* `Project.enclosed_ofSources`: whatever sources are read, the record nests
* `Project.Enclosed.wellFounded_parentOf?`, `Project.Enclosed.wellFounded_children`: walks outwards
  and inwards end
* `Project.Enclosed.qualifiedName?_eq`, `Project.Enclosed.findField?_eq`,
  `Project.Enclosed.fieldsBelow_eq`: what the walks answer, without a bound
* `Project.lineal_ofSources`: all of this of every list of sources
-/

namespace AdLint

/-! ## Identifiers and their ranges -/

namespace DeclarationId

variable {a a' b b' : DeclarationId}

/-- The number of bytes in the range of an identifier. -/
def length (id : DeclarationId) : Nat := id.stop - id.start

/-- Which of several texts for one identifier is taken does not matter. -/
theorem Encloses.of_same (h : a.Encloses b) (ha : a'.same a) (hb : b'.same b) : a'.Encloses b' := by
  obtain ⟨hfile, hstart, hstop, hproper⟩ := h
  obtain ⟨hafile, hastart, hastop⟩ := same_iff.mp ha
  obtain ⟨hbfile, hbstart, hbstop⟩ := same_iff.mp hb
  refine ⟨?_, ?_, ?_, ?_⟩
  · rw [hafile, hfile, hbfile]
  · rw [hastart, hbstart]
    exact hstart
  · rw [hastop, hbstop]
    exact hstop
  · rw [hastart, hbstart, hastop, hbstop]
    exact hproper

/-- An enclosing range is longer. -/
theorem Encloses.length_lt (h : a.Encloses b) (hb : b.start < b.stop) : b.length < a.length := by
  have hstart := h.start_le
  have hstop := h.stop_le
  have hproper := h.proper
  rw [length, length]
  omega

end DeclarationId

/-- A weaker condition counts more, if it counts an element that the stronger one does not. -/
theorem countP_lt_countP {α : Type} {l : List α} {p q : α → Bool} {x : α}
    (h : ∀ y ∈ l, p y = true → q y = true) (hx : x ∈ l) (hq : q x = true) (hp : p x = false) :
    l.countP p < l.countP q := by
  obtain ⟨before, after, rfl⟩ := List.append_of_mem hx
  have hbefore := List.countP_mono_left fun y hy => h y (List.mem_append_left _ hy)
  have hafter := List.countP_mono_left fun y hy =>
    h y (List.mem_append_right before (List.mem_cons_of_mem x hy))
  rw [List.countP_append, List.countP_append, List.countP_cons_of_pos hq,
    List.countP_cons_of_neg (by simp [hp])]
  omega

/-! ## Outlines -/

/-- The outline of a file lists every declaration once, and after the one that it stands in. -/
structure Outline.ParentsFirst (o : Outline) : Prop where
  distinct : o.declarations.Pairwise fun a b => a.id.same b.id = false
  parents : ∀ before d after, o.declarations = before ++ d :: after → ∀ id, d.parent = some id →
    ∃ e ∈ before, e.id = id ∧ id.Encloses d.id

theorem Nested.parentsFirst {path : Path} {lo hi : Nat} {o : Outline}
    (h : Nested path none lo hi o.declarations) : o.ParentsFirst where
  distinct := by
    refine h.distinct.imp_of_mem fun {a b} ha hb hne => ?_
    rw [← Bool.not_eq_true]
    intro hsame
    -- all identifiers of an outline have the file of the outline
    have hfile : a.id.file = b.id.file := (h.within a ha).1.trans (h.within b hb).1.symm
    obtain ⟨-, hstart, hstop⟩ := DeclarationId.same_iff.mp hsame
    refine hne ?_
    change (⟨a.id.file, a.id.start, a.id.stop⟩ : DeclarationId) = ⟨b.id.file, b.id.start, b.id.stop⟩
    rw [hfile, hstart, hstop]
  parents := by
    intro before d after hds id hid
    rcases h.parents hds with hd | ⟨e, he, hd, hencloses⟩
    · rw [hid] at hd
      cases hd
    · rw [hid] at hd
      cases hd
      exact ⟨e, he, rfl, hencloses⟩

/-- A manifest declares nothing. -/
theorem Manifest.outline_eq_ok {path : Path} {text : String} {o : Outline}
    (h : Manifest.outline path text = .ok o) : o.declarations = [] ∧ o.file.path = path := by
  rw [Manifest.outline] at h
  cases hpieces : pieces text with
  | error e =>
    rw [hpieces] at h
    cases h
  | ok ps =>
    rw [hpieces] at h
    cases h
    exact ⟨rfl, rfl⟩

theorem exists_outline_of_outlineOf {path : Path} {text : String} {o : Outline}
    (h : outlineOf path text = .ok o) : ∃ kind : FileKind, kind.outline path text = .ok o := by
  delta outlineOf at h
  split at h
  · next kind _ =>
    split at h
    · next o' houtline =>
      cases h
      exact ⟨kind, houtline⟩
    · cases h
  · cases h

/-- The declarations of every file nest. -/
theorem nested_outlineOf {path : Path} {text : String} {o : Outline}
    (h : outlineOf path text = .ok o) : ∃ hi, Nested path none 0 hi o.declarations := by
  obtain ⟨kind, h⟩ := exists_outline_of_outlineOf h
  cases kind with
  | kotlin =>
    cases h
    exact Kotlin.nested_outline path text
  | java =>
    cases h
    exact Java.nested_outline path text
  | manifest =>
    rw [(Manifest.outline_eq_ok h).1]
    exact ⟨0, .nil⟩

theorem path_outlineOf {path : Path} {text : String} {o : Outline}
    (h : outlineOf path text = .ok o) : o.file.path = path := by
  obtain ⟨kind, h⟩ := exists_outline_of_outlineOf h
  cases kind with
  | kotlin =>
    cases h
    rfl
  | java =>
    cases h
    rfl
  | manifest => exact (Manifest.outline_eq_ok h).2

namespace Project

/-! ## Records of declarations that nest -/

/-- Every declaration of the record stands in its own file, which is recorded too, on a range that
is not empty, and the record holds a declaration around it for its parent. -/
structure Enclosed (p : Project) : Prop where
  file : ∀ d ∈ p.added, d.location.file = d.id.file
  recorded : ∀ d ∈ p.added, ∃ f ∈ p.filesAdded, f.path = d.location.file
  nonempty : ∀ d ∈ p.added, d.id.start < d.id.stop
  parent : ∀ d ∈ p.added, ∀ id, d.parent = some id → ∃ e ∈ p.added, e.id = id ∧ id.Encloses d.id

theorem Enclosed.merge {p : Project} {o : Outline} {path : Path} {lo hi : Nat} (hp : p.Enclosed)
    (ho : AdLint.Nested path none lo hi o.declarations) (hpath : o.file.path = path) :
    (p.merge o).Enclosed where
  file d hd := by
    rcases List.mem_append.mp hd with hd | hd
    · exact hp.file d hd
    · obtain ⟨hfile, hlocation, -⟩ := ho.within d hd
      rw [hlocation, hfile]
  recorded d hd := by
    rcases List.mem_append.mp hd with hd | hd
    · obtain ⟨f, hf, hfile⟩ := hp.recorded d hd
      exact ⟨f, List.mem_append_left _ hf, hfile⟩
    · refine ⟨o.file, List.mem_append_right _ List.mem_cons_self, ?_⟩
      rw [hpath, (ho.within d hd).2.1]
  nonempty d hd := by
    rcases List.mem_append.mp hd with hd | hd
    · exact hp.nonempty d hd
    · exact (ho.within d hd).2.2.2.1
  parent d hd id hid := by
    rcases List.mem_append.mp hd with hd | hd
    · obtain ⟨e, he, hencloses⟩ := hp.parent d hd id hid
      exact ⟨e, List.mem_append_left _ he, hencloses⟩
    · -- a new declaration comes with its parent, in one outline
      obtain ⟨before, after, hds⟩ := List.append_of_mem hd
      obtain ⟨e, he, hencloses⟩ := ho.parentsFirst.parents before d after hds id hid
      exact ⟨e, List.mem_append_right _ (hds ▸ List.mem_append_left _ he), hencloses⟩

/-- **Whatever sources are read, the record of the project nests**, also when paths repeat. -/
theorem enclosed_ofSources (sources : List (Path × String)) : (ofSources sources).1.Enclosed := by
  have hrun : ∀ state : Project × List (Path × SkipReason), state.1.Enclosed →
      (sources.foldl addSource state).1.Enclosed := by
    induction sources with
    | nil => exact fun state h => h
    | cons source sources ih =>
      intro state h
      refine ih _ ?_
      delta addSource
      split
      · next o ho =>
        obtain ⟨hi, hnested⟩ := nested_outlineOf ho
        exact h.merge hnested (path_outlineOf ho)
      · exact h
  exact hrun ({}, []) ⟨by simp, by simp, by simp, by simp⟩

/-! ## Parents -/

section Enclosed

variable {p : Project} {d e c : Declaration} {id : DeclarationId}

theorem exists_find? (hd : d ∈ p.added) : ∃ e, p.find? d.id = some e := by
  refine Option.isSome_iff_exists.mp (List.find?_isSome.mpr ⟨d, List.mem_reverse.mpr hd, ?_⟩)
  exact DeclarationId.same_refl d.id

/-- The parent of a declaration is found, around it. -/
theorem Enclosed.find?_parent (hp : p.Enclosed) (hd : d ∈ p.added) (hid : d.parent = some id) :
    ∃ e, p.find? id = some e ∧ e.id.Encloses d.id := by
  obtain ⟨e₀, he₀, rfl, hencloses⟩ := hp.parent d hd id hid
  obtain ⟨e, he⟩ := exists_find? he₀
  exact ⟨e, he, hencloses.of_same (same_of_find? he) (DeclarationId.same_refl d.id)⟩

theorem Enclosed.encloses_of_parentOf? (hp : p.Enclosed) (hd : d ∈ p.added)
    (he : p.parentOf? d = some e) : e.id.Encloses d.id := by
  obtain ⟨id, hid, he⟩ := Option.bind_eq_some_iff.mp he
  obtain ⟨e', he', hencloses⟩ := hp.find?_parent hd hid
  rw [he] at he'
  cases he'
  exact hencloses

theorem mem_added_of_parentOf? (he : p.parentOf? d = some e) : e ∈ p.added := by
  obtain ⟨id, -, he⟩ := Option.bind_eq_some_iff.mp he
  exact mem_added_of_find? he

/-- A declaration has no parent exactly when none is found. -/
theorem Enclosed.parentOf?_eq_none_iff (hp : p.Enclosed) (hd : d ∈ p.added) :
    p.parentOf? d = none ↔ d.parent = none := by
  rw [parentOf?]
  cases hid : d.parent with
  | none => simp
  | some id =>
    obtain ⟨e, he, -⟩ := hp.find?_parent hd hid
    simp [he]

/-! ## Following parents

Every step to a parent leads to a longer range of the record. There are no more of them than entries
of the record, so the bound on a walk is never reached. -/

/-- The number of entries of the record on longer ranges. -/
def longer (p : Project) (id : DeclarationId) : Nat :=
  p.added.countP fun e => id.length < e.id.length

/-- The number of entries of the record on shorter ranges. -/
def shorter (p : Project) (id : DeclarationId) : Nat :=
  p.added.countP fun e => e.id.length < id.length

theorem longer_lt_length (he : e ∈ p.added) : p.longer e.id < p.added.length :=
  List.countP_lt_length_iff.mpr ⟨e, he, by simp⟩

theorem longer_lt_longer (he : e ∈ p.added) (h : id.length < e.id.length) :
    p.longer e.id < p.longer id :=
  countP_lt_countP (fun _ _ hx => by simp at hx ⊢; omega) he (by simpa using h) (by simp)

theorem shorter_lt_shorter (hc : c ∈ p.added) (h : c.id.length < id.length) :
    p.shorter c.id < p.shorter id :=
  countP_lt_countP (fun _ _ hx => by simp at hx ⊢; omega) hc (by simpa using h) (by simp)

theorem Enclosed.longer_parentOf?_lt (hp : p.Enclosed) (hd : d ∈ p.added)
    (he : p.parentOf? d = some e) : p.longer e.id < p.longer d.id :=
  longer_lt_longer (mem_added_of_parentOf? he)
    ((hp.encloses_of_parentOf? hd he).length_lt (hp.nonempty d hd))

/-- **Following parents ends.** -/
theorem Enclosed.wellFounded_parentOf? (hp : p.Enclosed) :
    WellFounded fun outer inner => p.parentOf? inner = some outer := by
  have hadded : ∀ n, ∀ d ∈ p.added, p.longer d.id = n →
      Acc (fun outer inner => p.parentOf? inner = some outer) d := by
    intro n
    induction n using Nat.strong_induction_on with
    | _ n ih =>
      rintro d hd rfl
      exact ⟨d, fun e he =>
        ih _ (hp.longer_parentOf?_lt hd he) e (mem_added_of_parentOf? he) rfl⟩
  -- a declaration from elsewhere has a parent in the record, if it has one
  exact ⟨fun d => ⟨d, fun e he => hadded _ e (mem_added_of_parentOf? he) rfl⟩⟩

theorem climb_of_parentOf?_eq_none (h : p.parentOf? d = none) (n : Nat) :
    ancestry.climb p n d = [d] := by
  cases n with
  | zero => rfl
  | succ n => rw [ancestry.climb, h]

theorem climb_of_parentOf?_eq_some (h : p.parentOf? d = some e) (n : Nat) :
    ancestry.climb p (n + 1) d = d :: ancestry.climb p n e := by
  rw [ancestry.climb, h]

theorem ancestry_eq_cons (d : Declaration) : p.ancestry d = d :: (p.ancestry d).tail := by
  rw [ancestry]
  cases p.added.length with
  | zero => rfl
  | succ n =>
    rw [ancestry.climb]
    split <;> rfl

/-- A walk over all longer ranges takes no further step. -/
theorem Enclosed.climb_succ (hp : p.Enclosed) (hd : d ∈ p.added) (n : Nat)
    (hn : p.longer d.id ≤ n) : ancestry.climb p (n + 1) d = ancestry.climb p n d := by
  induction n generalizing d with
  | zero =>
    -- no longer range is left
    have hnone : p.parentOf? d = none := by
      refine Option.eq_none_iff_forall_ne_some.mpr fun e he => ?_
      have hlt := hp.longer_parentOf?_lt hd he
      omega
    rw [climb_of_parentOf?_eq_none hnone, climb_of_parentOf?_eq_none hnone]
  | succ n ih =>
    cases he : p.parentOf? d with
    | none => rw [climb_of_parentOf?_eq_none he, climb_of_parentOf?_eq_none he]
    | some e =>
      have hlt := hp.longer_parentOf?_lt hd he
      rw [climb_of_parentOf?_eq_some he, climb_of_parentOf?_eq_some he,
        ih (mem_added_of_parentOf? he) (by omega)]

/-- The chain around a declaration goes on with the chain around its parent. -/
theorem Enclosed.ancestry_of_parentOf?_eq_some (hp : p.Enclosed) (he : p.parentOf? d = some e) :
    p.ancestry d = d :: p.ancestry e := by
  have hmem := mem_added_of_parentOf? he
  have hlength := longer_lt_length hmem
  obtain ⟨n, hn⟩ := Nat.exists_eq_succ_of_ne_zero (Nat.ne_zero_of_lt hlength)
  rw [ancestry, ancestry, hn, climb_of_parentOf?_eq_some he, hp.climb_succ hmem n (by omega)]

theorem ancestry_of_parentOf?_eq_none (h : p.parentOf? d = none) : p.ancestry d = [d] :=
  climb_of_parentOf?_eq_none h _

/-! ## Qualified names -/

theorem outerNames?_none (n : Nat) : p.outerNames? n none = some [] := by
  cases n <;> rfl

theorem outerNames?_some {n : Nat} (he : p.find? id = some e) :
    p.outerNames? (n + 1) (some id) =
      (p.outerNames? n e.parent).map fun names => names ++ [e.name] := by
  rw [outerNames?, he, Option.bind_eq_bind, Option.bind_some]
  cases p.outerNames? n e.parent <;> rfl

/-- The names around a declaration are those of the chain around it. -/
theorem Enclosed.outerNames?_eq (hp : p.Enclosed) (hd : d ∈ p.added) (n : Nat)
    (hn : p.longer d.id < n) :
    p.outerNames? n d.parent = some ((p.ancestry d).tail.map Declaration.name).reverse := by
  induction n generalizing d with
  | zero => omega
  | succ n ih =>
    cases hid : d.parent with
    | none =>
      have hnone := (hp.parentOf?_eq_none_iff hd).mpr hid
      rw [outerNames?_none, ancestry_of_parentOf?_eq_none hnone]
      rfl
    | some id =>
      obtain ⟨e, he, -⟩ := hp.find?_parent hd hid
      have hparent : p.parentOf? d = some e := by
        rw [parentOf?, hid]
        exact he
      have hlt := hp.longer_parentOf?_lt hd hparent
      rw [outerNames?_some he, ih (mem_added_of_find? he) (by omega),
        hp.ancestry_of_parentOf?_eq_some hparent, Option.map_some, List.tail_cons]
      -- the chain around the parent begins with the parent
      rw [ancestry_eq_cons e, List.tail_cons, List.map_cons, List.reverse_cons]

/-- **The qualified name of a declaration** is made of its package and the chain around it. -/
theorem Enclosed.qualifiedName?_eq (hp : p.Enclosed) (hd : d ∈ p.added) :
    p.qualifiedName? d = (p.packageOf? d.location.file).map fun package =>
      ".".intercalate (package :: ((p.ancestry d).map Declaration.name).reverse) := by
  have hnames := hp.outerNames?_eq hd (p.added.length + 1)
    (Nat.lt_succ_of_lt (longer_lt_length hd))
  rw [qualifiedName?, hnames, ancestry_eq_cons d, List.tail_cons, List.map_cons, List.reverse_cons]
  cases p.packageOf? d.location.file <;> rfl

theorem Enclosed.exists_file? (hp : p.Enclosed) (hd : d ∈ p.added) :
    ∃ f, p.file? d.location.file = some f := by
  obtain ⟨f, hf, hpath⟩ := hp.recorded d hd
  refine Option.isSome_iff_exists.mp (List.find?_isSome.mpr ⟨f, List.mem_reverse.mpr hf, ?_⟩)
  rw [hpath]
  exact Path.same_refl d.location.file

/-! ## Nested fields -/

/-- What stands in a declaration is on a part of its range. -/
theorem Enclosed.encloses_of_mem_children (hp : p.Enclosed) (hc : c ∈ p.children id) :
    id.Encloses c.id := by
  obtain ⟨e, he, hfind⟩ := mem_current.mp hc
  obtain ⟨hadded, hparent⟩ := List.mem_filter.mp he
  obtain ⟨parent, hid, hsame⟩ := (Option.any_eq_true _ _).mp hparent
  obtain ⟨e', -, rfl, hencloses⟩ := hp.parent e hadded parent hid
  exact hencloses.of_same (DeclarationId.same_symm hsame) (same_of_find? hfind)

theorem mem_added_of_mem_children (hc : c ∈ p.children id) : c ∈ p.added :=
  mem_added_of_find? (find?_of_mem_children hc)

theorem Enclosed.length_lt_of_mem_children (hp : p.Enclosed) (hc : c ∈ p.children id) :
    c.id.length < id.length :=
  (hp.encloses_of_mem_children hc).length_lt (hp.nonempty c (mem_added_of_mem_children hc))

/-- **Descending into declarations ends.** -/
theorem Enclosed.wellFounded_children (hp : p.Enclosed) :
    WellFounded fun inner outer : Declaration => inner ∈ p.children outer.id :=
  Subrelation.wf (fun hc => hp.length_lt_of_mem_children hc)
    (measure fun d : Declaration => d.id.length).wf

theorem Enclosed.shorter_lt_of_mem_children (hp : p.Enclosed) (hc : c ∈ p.children id) :
    p.shorter c.id < p.shorter id :=
  shorter_lt_shorter (mem_added_of_mem_children hc) (hp.length_lt_of_mem_children hc)

theorem Enclosed.fieldsBelow_succ (hp : p.Enclosed) (n : Nat) (hn : p.shorter d.id ≤ n) :
    Registration.fieldsBelow p (n + 1) d = Registration.fieldsBelow p n d := by
  induction n generalizing d with
  | zero =>
    -- no shorter range is left
    have hnone : p.children d.id = [] := by
      refine List.eq_nil_iff_forall_not_mem.mpr fun c hc => ?_
      have hlt := hp.shorter_lt_of_mem_children hc
      omega
    change p.fieldsOf d ++ ((p.children d.id).filter Declaration.isType).flatMap _ = p.fieldsOf d
    rw [hnone]
    exact List.append_nil _
  | succ n ih =>
    rw [Registration.fieldsBelow, Registration.fieldsBelow]
    -- each type inside has fewer shorter ranges than `d`
    congr 1
    refine List.flatMap_congr fun c hc => ih ?_
    have hlt := hp.shorter_lt_of_mem_children (List.mem_filter.mp hc).1
    omega

/-- **The fields below a type** are its own and those below the types that stand in it. -/
theorem Enclosed.fieldsBelow_eq (hp : p.Enclosed) (d : Declaration) :
    Registration.fieldsBelow p p.added.length d =
      p.fieldsOf d ++ ((p.children d.id).filter Declaration.isType).flatMap
        (Registration.fieldsBelow p p.added.length) := by
  rw [← hp.fieldsBelow_succ p.added.length List.countP_le_length, Registration.fieldsBelow]

/-! ## Fields in scope -/

theorem topLevelField?_congr {file file' : Path} (h : file.components = file'.components)
    (name : String) : p.topLevelField? file name = p.topLevelField? file' name := by
  have hsame : ∀ q : Path, q.same file = q.same file' := fun q => by rw [Path.same, Path.same, h]
  rw [topLevelField?, topLevelField?, inFile, inFile]
  simp only [hsame]

theorem Enclosed.file_parentOf? (hp : p.Enclosed) (hd : d ∈ p.added) (he : p.parentOf? d = some e) :
    e.location.file.components = d.location.file.components := by
  rw [hp.file e (mem_added_of_parentOf? he), hp.file d hd]
  exact (hp.encloses_of_parentOf? hd he).file

/-- **A name without a qualifier** is a field of the scope, or else what it is in the declaration
around the scope; outside all declarations it is a field of the file. -/
theorem Enclosed.findField?_eq (hp : p.Enclosed) (hd : d ∈ p.added) {name : String}
    (hname : Text.cutAtLast? '.' name.toList = none) :
    p.findField? (some d) name =
      (p.memberField? d name).or
        (match p.parentOf? d with
          | some outer => p.findField? (some outer) name
          | none => p.topLevelField? d.location.file name) := by
  have hwalk : ∀ e, p.findField? (some e) name =
      ((p.ancestry e).findSome? fun d => p.memberField? d name).or
        (p.topLevelField? e.location.file name) := by
    intro e
    rw [findField?, hname]
    rfl
  cases he : p.parentOf? d with
  | none =>
    dsimp only
    rw [hwalk d, ancestry_of_parentOf?_eq_none he, List.findSome?_cons]
    cases p.memberField? d name <;> rfl
  | some e =>
    dsimp only
    rw [hwalk d, hwalk e, hp.ancestry_of_parentOf?_eq_some he, List.findSome?_cons,
      topLevelField?_congr (hp.file_parentOf? hd he)]
    cases p.memberField? d name <;> rfl

end Enclosed

/-! ## The projects of all sources -/

/-- The declarations of a project nest, and every walk over them ends. -/
structure Lineal (p : Project) : Prop where
  /-- The parent of a declaration is found among the declarations, around it in its file. -/
  parent : ∀ d ∈ p.declarations, ∀ id, d.parent = some id →
    ∃ e ∈ p.declarations, p.find? id = some e ∧ e.id.same id ∧ e.id.Encloses d.id
  /-- There is no endless walk outwards. -/
  outwards : WellFounded fun outer inner => p.parentOf? inner = some outer
  /-- There is no endless walk inwards. -/
  inwards : WellFounded fun inner outer : Declaration => inner ∈ p.children outer.id
  /-- The chain around a declaration is followed as long as there is a parent. -/
  ancestry_eq : ∀ d, p.ancestry d = d :: ((p.parentOf? d).map p.ancestry).getD []
  /-- The qualified name is made of the package of the file and the names along the chain, and only
  the package can be missing. -/
  qualifiedName?_eq : ∀ d ∈ p.declarations, ∃ file, p.file? d.location.file = some file ∧
    (p.qualifiedName? d = none ↔ file.package = none) ∧
    p.qualifiedName? d = file.package.map fun package =>
      ".".intercalate (package :: ((p.ancestry d).map Declaration.name).reverse)
  /-- An unqualified name is searched outwards as long as there is a parent, and then in the
  file. -/
  findField?_eq : ∀ d ∈ p.declarations, ∀ name, Text.cutAtLast? '.' name.toList = none →
    p.findField? (some d) name = (p.memberField? d name).or
      (match p.parentOf? d with
        | some outer => p.findField? (some outer) name
        | none => p.topLevelField? d.location.file name)
  /-- The fields of a registration class are gathered inwards as long as there are types. -/
  collect_eq : ∃ fields : Declaration → List Declaration,
    (∀ d, fields d = p.fieldsOf d ++
      ((p.children d.id).filter Declaration.isType).flatMap fields) ∧
    ∀ className, (Registration.collect p className).types =
      ((p.types.filter fun d => d.name == className).flatMap fields).filterMap
        (Registration.typeOf? p)

theorem mem_added_of_mem_declarations {p : Project} {d : Declaration} (hd : d ∈ p.declarations) :
    d ∈ p.added :=
  mem_added_of_find? (find?_of_mem_declarations hd)

theorem Enclosed.lineal {p : Project} (hp : p.Enclosed) : p.Lineal where
  parent d hd id hid := by
    obtain ⟨e, he, hencloses⟩ := hp.find?_parent (mem_added_of_mem_declarations hd) hid
    exact ⟨e, mem_declarations_iff.mpr (find?_self_of_find? he), he, same_of_find? he, hencloses⟩
  outwards := hp.wellFounded_parentOf?
  inwards := hp.wellFounded_children
  ancestry_eq d := by
    cases he : p.parentOf? d with
    | none => exact ancestry_of_parentOf?_eq_none he
    | some e => exact hp.ancestry_of_parentOf?_eq_some he
  qualifiedName?_eq d hd := by
    have hadded := mem_added_of_mem_declarations hd
    obtain ⟨f, hf⟩ := hp.exists_file? hadded
    have hname := hp.qualifiedName?_eq hadded
    rw [packageOf?, hf, Option.bind_some] at hname
    refine ⟨f, hf, ?_, hname⟩
    rw [hname]
    exact Option.map_eq_none_iff
  findField?_eq d hd _ hname := hp.findField?_eq (mem_added_of_mem_declarations hd) hname
  collect_eq := ⟨Registration.fieldsBelow p p.added.length, hp.fieldsBelow_eq, fun _ => rfl⟩

/-- **Whatever sources are read**, each outline lists a declaration once and after its parent, the
declarations of the project nest, and every walk over them ends. -/
theorem lineal_ofSources (sources : List (Path × String)) :
    (∀ path text o, (path, text) ∈ sources → outlineOf path text = .ok o → o.ParentsFirst) ∧
      (ofSources sources).1.Lineal := by
  refine ⟨fun path text o _ ho => ?_, (enclosed_ofSources sources).lineal⟩
  obtain ⟨hi, hnested⟩ := nested_outlineOf ho
  exact hnested.parentsFirst

-- the second text for the path moves the field `b` from the first class `A` into its own, and it
-- decides about the package of both
example :
    let p := (ofSources
      [(⟨"A.java"⟩, "package p; class A \x7b int b; class C \x7b int d; \x7d \x7d"),
        (⟨"A.java"⟩, "package q; class A \x7b int b; \x7d")]).1
    p.declarations.map (fun d =>
        (d.id.start, d.id.stop, d.parent.map fun id => (id.start, id.stop), p.qualifiedName? d)) =
      [(11, 48, none, some "q.A"), (25, 26, some (11, 29), some "q.A.b"),
        (28, 46, some (11, 48), some "q.A.C"), (42, 43, some (28, 46), some "q.A.C.d"),
        (11, 29, none, some "q.A")] := by
  decide +kernel

end Project

end AdLint
