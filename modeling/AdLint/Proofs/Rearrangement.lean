import AdLint.Proofs.Assembly
import AdLint.Proofs.NameGraph
import AdLint.Room.Registration

/-!
# Questions that do not depend on the order of files

A project remembers its declarations in the order in which its files were read. Nearly every
question is about one file: what stands in a declaration, or around a location, is in the same file,
and a path leads to one file. So two projects that agree on each file by itself give the same
answers, whatever the order of their files. The one question that ranges over all files is for the
types of a name, and it has the same answer if all types of one name are in one file. Whether a type
lies below another one is a matter of names alone, and does not depend on an order.

## Main definitions

* `Project.Rearranges p q`: two projects agree on each file, and types of one name are in one file

## Main results

* `Project.Rearranges.find?_eq`, `Project.Rearranges.children_eq`,
  `Project.Rearranges.typesNamed_eq`: the declarations of an identifier, in another one and of a
  name
* `Project.Rearranges.isSubtypeOf_eq`, `Project.Rearranges.qualifyType?_eq`: types by name
* `Project.Rearranges.evaluate?_eq`, `Project.Rearranges.knownStart?_eq`: the values of expressions
* `Project.Rearranges.collect_eq`: the registration class
-/

namespace AdLint

/-! ## Lists that agree on each file -/

/-- Two lists of things in files agree on each file by itself. -/
def AgreeByFile {α : Type} (file : α → Path) (xs ys : List α) : Prop :=
  ∀ path, (xs.filter fun x => (file x).same path) = ys.filter fun x => (file x).same path

theorem Path.same_congr {a b : Path} (h : a.same b = true) (c : Path) : a.same c = b.same c := by
  rw [same, same, same_iff.mp h]

namespace AgreeByFile

variable {α β : Type} {file : α → Path} {file' : β → Path} {xs ys xs' ys' : List α}

theorem symm (h : AgreeByFile file xs ys) : AgreeByFile file ys xs := fun path => (h path).symm

theorem subset (h : AgreeByFile file xs ys) {x : α} (hx : x ∈ xs) : x ∈ ys := by
  have hmem : x ∈ xs.filter fun y => (file y).same (file x) :=
    List.mem_filter.mpr ⟨hx, Path.same_refl (file x)⟩
  rw [h (file x)] at hmem
  exact List.mem_of_mem_filter hmem

theorem mem_iff (h : AgreeByFile file xs ys) {x : α} : x ∈ xs ↔ x ∈ ys := ⟨h.subset, h.symm.subset⟩

/-- What is picked from one file is the same. -/
theorem filter_eq (h : AgreeByFile file xs ys) {pick : α → Bool} (path : Path)
    (hpick : ∀ x ∈ xs, pick x = true → (file x).same path = true) :
    xs.filter pick = ys.filter pick := by
  -- to pick from a list is to pick from its part in that file, on which the lists agree
  have hfile : ∀ {zs : List α}, (∀ z ∈ zs, z ∈ xs) →
      zs.filter pick = (zs.filter fun z => (file z).same path).filter pick := by
    intro zs hzs
    rw [List.filter_filter]
    refine List.filter_congr fun z hz => ?_
    cases hz' : pick z with
    | false => rfl
    | true => rw [hpick z (hzs z hz) hz']; rfl
  rw [hfile fun z hz => hz, h path, ← hfile fun z hz => h.mem_iff.mpr hz]

/-- The same, if all that is picked is in one file. -/
theorem filter_eq_of_oneFile (h : AgreeByFile file xs ys) {pick : α → Bool}
    (hpick : ∀ x ∈ xs, ∀ y ∈ xs, pick x = true → pick y = true → (file x).same (file y) = true) :
    xs.filter pick = ys.filter pick := by
  cases hxs : xs.filter pick with
  | nil =>
    rw [eq_comm, List.filter_eq_nil_iff]
    exact fun y hy => List.filter_eq_nil_iff.mp hxs y (h.mem_iff.mpr hy)
  | cons x rest =>
    obtain ⟨hx, hxpick⟩ := List.mem_filter.mp (hxs ▸ List.mem_cons_self : x ∈ xs.filter pick)
    rw [← hxs]
    exact h.filter_eq (file x) fun y hy hypick => hpick y hy x hx hypick hxpick

theorem filter (h : AgreeByFile file xs ys) (pick : α → Bool) :
    AgreeByFile file (xs.filter pick) (ys.filter pick) := by
  intro path
  rw [List.filter_comm, h path, List.filter_comm]

theorem append (h : AgreeByFile file xs ys) (h' : AgreeByFile file xs' ys') :
    AgreeByFile file (xs ++ xs') (ys ++ ys') := by
  intro path
  rw [List.filter_append, List.filter_append, h path, h' path]

/-- What each thing yields in its own file. -/
theorem flatMap (h : AgreeByFile file xs ys) {f : α → List β}
    (hf : ∀ x ∈ xs, ∀ y ∈ f x, (file' y).same (file x) = true) :
    AgreeByFile file' (xs.flatMap f) (ys.flatMap f) := by
  intro path
  -- things in other files yield nothing in this one
  have hnone : ∀ x ∈ xs, (file x).same path = false →
      ((f x).filter fun y => (file' y).same path) = [] := by
    refine fun x hx hpath => List.filter_eq_nil_iff.mpr fun y hy => ?_
    rw [Path.same_congr (hf x hx y hy) path, hpath]
    exact Bool.false_ne_true
  rw [List.filter_flatMap, List.filter_flatMap, ← flatMap_filter_of_eq_nil hnone, h path,
    flatMap_filter_of_eq_nil fun y hy => hnone y (h.mem_iff.mpr hy)]

theorem filterMap (h : AgreeByFile file xs ys) {f : α → Option β}
    (hf : ∀ x ∈ xs, ∀ y, f x = some y → (file' y).same (file x) = true) :
    AgreeByFile file' (xs.filterMap f) (ys.filterMap f) := by
  rw [List.filterMap_eq_flatMap_toList, List.filterMap_eq_flatMap_toList]
  exact h.flatMap fun x hx y hy => hf x hx y (Option.mem_toList.mp hy)

theorem map (h : AgreeByFile file xs ys) {f : α → β} (hf : ∀ x ∈ xs, file' (f x) = file x) :
    AgreeByFile file' (xs.map f) (ys.map f) := by
  rw [List.map_eq_flatMap, List.map_eq_flatMap]
  refine h.flatMap fun x hx y hy => ?_
  rw [List.mem_singleton.mp hy, hf x hx]
  exact Path.same_refl _

/-- Lists that agree on each file have the same elements, each as often. -/
theorem perm [DecidableEq α] (h : AgreeByFile file xs ys) : xs.Perm ys := by
  refine List.perm_iff_count.mpr fun x => ?_
  have hself : ∀ zs : List α, (zs.filter fun y => (file y).same (file x)).count x = zs.count x :=
    fun zs => List.count_filter (Path.same_refl (file x))
  rw [← hself xs, h (file x), hself ys]

end AgreeByFile

namespace Project

/-! ## Rearranged projects -/

/-- Two projects agree on each file by itself. No two declarations are one, and a declaration is in
one file with its parent and its annotations, and a type with all others of its name. -/
structure Rearranges (p q : Project) : Prop where
  perm : p.added.Perm q.added
  added : AgreeByFile (fun d => d.location.file) p.added q.added
  calls : AgreeByFile (fun c => c.location.file) p.calls q.calls
  files : AgreeByFile SourceFile.path p.filesAdded q.filesAdded
  components : AgreeByFile (fun c => c.location.file) p.components q.components
  distinct : p.Distinct
  file_of_id : ∀ d ∈ p.added, d.location.file = d.id.file
  file_of_parent : ∀ d ∈ p.added, ∀ id, d.parent = some id → d.location.file.same id.file = true
  file_of_annotatedAt : ∀ d ∈ p.added, ∀ m, d.AnnotatedAt m → m.file = d.location.file
  file_of_name : ∀ d ∈ p.added, ∀ e ∈ p.added, d.isType = true → e.isType = true → d.name = e.name →
    d.location.file.same e.location.file = true

namespace Rearranges

variable {p q : Project} (h : p.Rearranges q)

include h

/-! ## Declarations -/

theorem find?_eq : p.find? = q.find? := by
  funext id
  have hfilter : p.added.filter (fun d => d.id.same id) = q.added.filter fun d => d.id.same id := by
    refine h.added.filter_eq id.file fun d hd hsame => ?_
    rw [h.file_of_id d hd]
    exact Path.same_iff.mpr (DeclarationId.same_iff.mp hsame).1
  rw [find?, find?, ← List.head?_filter, ← List.head?_filter, List.filter_reverse,
    List.filter_reverse, hfilter]

theorem current_eq : p.current = q.current := by
  funext entries
  rw [current, current, h.find?_eq]

theorem file_of_any_parent {d : Declaration} {id : DeclarationId} (hd : d ∈ p.added)
    (hany : (d.parent.any fun parent => parent.same id) = true) :
    d.location.file.same id.file = true := by
  obtain ⟨parent, hparent, hsame⟩ := (Option.any_eq_true _ _).mp hany
  refine Path.same_iff.mpr ((Path.same_iff.mp (h.file_of_parent d hd parent hparent)).trans ?_)
  exact (DeclarationId.same_iff.mp hsame).1

/-- What stands in a declaration is in its file. -/
theorem file_of_mem_children {c : Declaration} {id : DeclarationId} (hc : c ∈ p.children id) :
    c.location.file.same id.file = true := by
  rw [h.distinct.children_eq] at hc
  obtain ⟨hmem, hany⟩ := List.mem_filter.mp hc
  exact h.file_of_any_parent hmem hany

theorem children_eq : p.children = q.children := by
  funext id
  have hfilter : p.added.filter (fun d => d.parent.any fun parent => parent.same id) =
      q.added.filter fun d => d.parent.any fun parent => parent.same id :=
    h.added.filter_eq id.file fun d hd hany => h.file_of_any_parent hd hany
  rw [children, children, h.current_eq, hfilter]

theorem inFile_eq : p.inFile = q.inFile := by
  funext file
  rw [inFile, inFile, h.current_eq, h.added file]

/-- The types of one name are in one file, so that their order is kept. -/
theorem filter_name_eq (name : String) :
    p.added.filter (fun d => d.isType && d.name == name) =
      q.added.filter fun d => d.isType && d.name == name := by
  refine h.added.filter_eq_of_oneFile fun d hd e he hdpick hepick => ?_
  obtain ⟨hdtype, hdname⟩ := Bool.and_eq_true_iff.mp hdpick
  obtain ⟨hetype, hename⟩ := Bool.and_eq_true_iff.mp hepick
  exact h.file_of_name d hd e he hdtype hetype
    ((beq_iff_eq.mp hdname).trans (beq_iff_eq.mp hename).symm)

theorem typesNamed_eq : p.typesNamed = q.typesNamed := by
  funext name
  rw [typesNamed, typesNamed, h.current_eq, h.filter_name_eq name]

theorem parentOf?_eq : p.parentOf? = q.parentOf? := by
  funext d
  rw [parentOf?, parentOf?, h.find?_eq]

theorem fieldsOf_eq : p.fieldsOf = q.fieldsOf := by
  funext owner
  rw [fieldsOf, fieldsOf, h.children_eq]

theorem file?_eq : p.file? = q.file? := by
  funext path
  rw [file?, file?, ← List.head?_filter, ← List.head?_filter, List.filter_reverse,
    List.filter_reverse, h.files path]

theorem packageOf?_eq : p.packageOf? = q.packageOf? := by
  funext path
  rw [packageOf?, packageOf?, h.file?_eq]

theorem enclosing_eq : p.enclosing = q.enclosing := by
  funext location
  rw [enclosing, enclosing, h.inFile_eq]

theorem innermost?_eq : p.innermost? = q.innermost? := by
  funext location
  rw [innermost?, innermost?, h.enclosing_eq]

theorem climb_eq (n : Nat) (d : Declaration) : ancestry.climb p n d = ancestry.climb q n d := by
  induction n generalizing d with
  | zero => rfl
  | succ n ih =>
    rw [ancestry.climb, ancestry.climb, h.parentOf?_eq]
    split
    · rw [ih]
    · rfl

theorem ancestry_eq : p.ancestry = q.ancestry := by
  funext d
  rw [ancestry, ancestry, h.perm.length_eq, h.climb_eq]

/-! ## Names -/

theorem localType?_eq : p.localType? = q.localType? := by
  funext file name
  rw [localType?, localType?, h.typesNamed_eq]

theorem resolveType?_eq : p.resolveType? = q.resolveType? := by
  funext file reference qualified
  unfold resolveType?
  rw [h.localType?_eq, h.file?_eq]

theorem resolveStatic?_eq : p.resolveStatic? = q.resolveStatic? := by
  funext file member qualified
  rw [resolveStatic?, resolveStatic?, h.file?_eq]

theorem outerNames?_eq (n : Nat) (parent : Option DeclarationId) :
    p.outerNames? n parent = q.outerNames? n parent := by
  induction n generalizing parent with
  | zero => cases parent <;> rfl
  | succ n ih =>
    cases parent with
    | none => rfl
    | some id => simp only [outerNames?, h.find?_eq, ih]

theorem qualifiedName?_eq : p.qualifiedName? = q.qualifiedName? := by
  funext d
  rw [qualifiedName?, qualifiedName?, h.outerNames?_eq, h.packageOf?_eq, h.perm.length_eq]

theorem declaredInPackage_eq : p.declaredInPackage = q.declaredInPackage := by
  funext package name
  rw [declaredInPackage, declaredInPackage, h.typesNamed_eq, h.packageOf?_eq]

theorem qualifyType?_eq : p.qualifyType? = q.qualifyType? := by
  funext file written
  unfold qualifyType?
  rw [h.localType?_eq, h.qualifiedName?_eq, h.file?_eq, h.declaredInPackage_eq]

/-! ## Constants -/

theorem memberField?_eq : p.memberField? = q.memberField? := by
  funext owner name
  rw [memberField?, memberField?, h.fieldsOf_eq]

theorem topLevelField?_eq : p.topLevelField? = q.topLevelField? := by
  funext file name
  rw [topLevelField?, topLevelField?, h.inFile_eq]

theorem findField?_eq : p.findField? = q.findField? := by
  funext scope reference
  unfold findField?
  rw [h.typesNamed_eq, h.memberField?_eq, h.ancestry_eq, h.topLevelField?_eq]

theorem initializerScope_eq : p.initializerScope = q.initializerScope := by
  funext field
  rw [initializerScope, initializerScope, h.parentOf?_eq]

theorem evaluateWithin?_eq (depth : Nat) (scope : Option Declaration) (e : Expr) :
    p.evaluateWithin? depth scope e = q.evaluateWithin? depth scope e := by
  induction depth generalizing scope e with
  | zero => rfl
  | succ depth ih =>
    cases e with
    | reference path => simp only [evaluateWithin?, h.findField?_eq, h.initializerScope_eq, ih]
    | concat operands => simp only [evaluateWithin?, ih]
    | _ => rfl

theorem evaluate?_eq : p.evaluate? = q.evaluate? := by
  funext scope e
  exact h.evaluateWithin?_eq (maxDepth + 1) scope e

theorem evaluateInt?_eq : p.evaluateInt? = q.evaluateInt? := by
  funext scope e
  rw [evaluateInt?, evaluateInt?, h.evaluate?_eq]

theorem leadingTexts_eq (scope : Option Declaration) (operands : List Expr) :
    p.leadingTexts scope operands = q.leadingTexts scope operands := by
  induction operands with
  | nil => rfl
  | cons operand operands ih =>
    rw [leadingTexts, leadingTexts, textualOperand?, textualOperand?, h.evaluate?_eq, ih]

theorem knownStart?_eq : p.knownStart? = q.knownStart? := by
  funext scope e
  cases e <;> simp only [knownStart?, h.leadingTexts_eq, h.evaluate?_eq]

/-! ## Types -/

theorem distinct_right : q.Distinct := by
  refine (h.perm.pairwise_iff fun {a b} hab => ?_).mp h.distinct
  exact Bool.eq_false_iff.mpr fun hba => Bool.eq_false_iff.mp hab (DeclarationId.same_symm hba)

theorem declarations : AgreeByFile (fun d => d.location.file) p.declarations q.declarations := by
  rw [h.distinct.declarations_eq, h.distinct_right.declarations_eq]
  exact h.added

theorem isSubtypeOf_eq : p.isSubtypeOf = q.isSubtypeOf := isSubtypeOf_congr fun _ => h.perm.mem_iff

/-! ## The registration class -/

theorem fieldsBelow_eq (n : Nat) (d : Declaration) :
    Registration.fieldsBelow p n d = Registration.fieldsBelow q n d := by
  induction n generalizing d with
  | zero => rw [Registration.fieldsBelow, Registration.fieldsBelow, h.fieldsOf_eq]
  | succ n ih =>
    rw [Registration.fieldsBelow, Registration.fieldsBelow, h.fieldsOf_eq, h.children_eq]
    exact congrArg _ (List.flatMap_congr fun child _ => ih child)

theorem collect_eq : Registration.collect p = Registration.collect q := by
  funext className
  have hclasses : p.types.filter (fun d => d.name == className) =
      q.types.filter fun d => d.name == className := by
    rw [types, types, h.distinct.declarations_eq, h.distinct_right.declarations_eq,
      List.filter_filter, List.filter_filter]
    have hname := h.filter_name_eq className
    simpa only [Bool.and_comm] using hname
  have hbelow : Registration.fieldsBelow p = Registration.fieldsBelow q := by
    funext n d
    exact h.fieldsBelow_eq n d
  have htype : Registration.typeOf? p = Registration.typeOf? q := by
    funext field
    rw [Registration.typeOf?, Registration.typeOf?, h.qualifyType?_eq]
  rw [Registration.collect, Registration.collect, hclasses, hbelow, htype, h.perm.length_eq]

end Rearranges

/-! ## Sources in another order -/

section Outlines

variable {os os' : List Outline} (hperm : os.Perm os')
  (hpaths : os.Pairwise fun o o' => o.file.path.same o'.file.path = false)

include hperm hpaths

/-- Outlines of different files in another order agree on each file, since there is one for each. -/
theorem agreeByFile_outlines : AgreeByFile (fun o : Outline => o.file.path) os os' := by
  intro path
  have hfilter := hperm.filter fun o => o.file.path.same path
  cases hos : os.filter fun o => o.file.path.same path with
  | nil => exact (hos ▸ hfilter).nil_eq
  | cons o rest =>
    cases rest with
    | nil => exact (List.singleton_perm.mp (hos ▸ hfilter)).symm ▸ rfl
    | cons o' rest =>
      -- two outlines of one file
      have hpair := hpaths.filter fun o => o.file.path.same path
      have hmem : ∀ x ∈ os.filter fun o => o.file.path.same path, x.file.path.same path = true :=
        fun x hx => (List.mem_filter.mp hx).2
      rw [hos] at hpair hmem
      have hne := (List.pairwise_cons.mp hpair).1 o' List.mem_cons_self
      rw [Path.same_iff.mpr ((Path.same_iff.mp (hmem o (by simp))).trans
        (Path.same_iff.mp (hmem o' (by simp))).symm)] at hne
      cases hne

/-- What outlines in another order contribute agrees on each file. -/
theorem agreeByFile_flatMap {α : Type} {f : Outline → List α} {file : α → Path}
    (hfile : ∀ o ∈ os, ∀ a ∈ f o, file a = o.file.path) :
    AgreeByFile file (os.flatMap f) (os'.flatMap f) := by
  refine (agreeByFile_outlines hperm hpaths).flatMap fun o ho a ha => ?_
  rw [hfile o ho a ha]
  exact Path.same_refl _

end Outlines

/-- **Sources in another order make up a rearranged project**, if their paths are different and
types of one name are in one file. -/
theorem rearranges_ofSources {sources sources' : List (Path × String)}
    (hperm : sources.Perm sources')
    (hpaths : sources.Pairwise fun a b => a.1.same b.1 = false)
    (hnames : ∀ d ∈ (ofSources sources).1.types, ∀ e ∈ (ofSources sources).1.types,
      d.name = e.name → d.location.file.same e.location.file = true) :
    (ofSources sources).1.Rearranges (ofSources sources').1 := by
  have henclosed := enclosed_ofSources sources
  rw [ofSources_eq_ofOutlines] at henclosed hnames ⊢
  rw [ofSources_eq_ofOutlines]
  have hos : ∀ o ∈ outlines sources, o.WellPlaced := fun o => wellPlaced_of_mem_outlines
  have hpaths := pairwise_outlines hpaths
  have hperm : (outlines sources).Perm (outlines sources') := hperm.filterMap _
  have hdistinct := distinct_ofOutlines hos hpaths
  exact {
    perm := hperm.flatMap_right _
    added := agreeByFile_flatMap hperm hpaths fun o ho => (hos o ho).file_of_declaration
    calls := agreeByFile_flatMap hperm hpaths fun o ho => (hos o ho).file_of_call
    files := (agreeByFile_outlines hperm hpaths).map fun _ _ => rfl
    components := agreeByFile_flatMap hperm hpaths fun o ho => (hos o ho).file_of_component
    distinct := hdistinct
    file_of_id := henclosed.file
    file_of_parent := fun d hd id hid => by
      obtain ⟨e, -, -, hencloses⟩ := henclosed.parent d hd id hid
      rw [henclosed.file d hd]
      exact Path.same_iff.mpr hencloses.file.symm
    file_of_annotatedAt := fun d hd m hm => by
      obtain ⟨o, ho, hd⟩ := List.mem_flatMap.mp hd
      rw [(hos o ho).file_of_annotatedAt d hd m hm, (hos o ho).file_of_declaration d hd]
    file_of_name := fun d hd e he hdtype hetype => by
      rw [types, hdistinct.declarations_eq] at hnames
      exact hnames d (List.mem_filter.mpr ⟨hd, hdtype⟩) e (List.mem_filter.mpr ⟨he, hetype⟩) }

end Project

end AdLint
