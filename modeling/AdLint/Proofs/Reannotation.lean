import AdLint.Project.Constant
import AdLint.Project.Hierarchy
import AdLint.Project.Names
import Mathlib.Data.List.Basic

/-!
# Questions that do not read annotations

A project is asked for its declarations, for the names and supertypes of its types, for the values
of expressions and for much else, but none of these questions looks at annotations. So changing the
annotations of declarations, in whatever way, changes no answer beyond the annotations of the
declarations in it. That is stated here once for each question, so that a statement about two
projects that differ in annotations alone comes down to what reads annotations.

## Main definitions

* `Declaration.reannotate`, `Project.reannotate`: other annotations, all else the same

## Main results

* `Project.find?_reannotate`: what an identifier finds
* `Project.enclosing_reannotate`, `Project.fieldsOf_reannotate`: declarations around and in another
* `Project.isSubtypeOf_reannotate`, `Project.qualifyType?_reannotate`: types by name
* `Project.evaluate?_reannotate`, `Project.knownStart?_reannotate`: the values of expressions
-/

namespace AdLint

/-- The declaration with other annotations. -/
def Declaration.reannotate (g : Declaration → List Annot) (d : Declaration) : Declaration :=
  { d with annotations := g d }

/-- The project with other annotations on its declarations. -/
def Project.reannotate (g : Declaration → List Annot) (p : Project) : Project :=
  { p with added := p.added.map (Declaration.reannotate g) }

/-! ## Declarations -/

section Declarations

variable (g : Declaration → List Annot) (d : Declaration)

@[simp] theorem Declaration.reannotate_id : (d.reannotate g).id = d.id := rfl

@[simp] theorem Declaration.reannotate_name : (d.reannotate g).name = d.name := rfl

@[simp] theorem Declaration.reannotate_kind : (d.reannotate g).kind = d.kind := rfl

@[simp] theorem Declaration.reannotate_location : (d.reannotate g).location = d.location := rfl

@[simp] theorem Declaration.reannotate_parent : (d.reannotate g).parent = d.parent := rfl

@[simp] theorem Declaration.reannotate_superTypes :
    (d.reannotate g).superTypes = d.superTypes := rfl

@[simp] theorem Declaration.reannotate_typeName : (d.reannotate g).typeName = d.typeName := rfl

@[simp] theorem Declaration.reannotate_initializer :
    (d.reannotate g).initializer = d.initializer := rfl

@[simp] theorem Declaration.reannotate_isType : (d.reannotate g).isType = d.isType := rfl

@[simp] theorem Declaration.reannotate_annotations : (d.reannotate g).annotations = g d := rfl

end Declarations

/-! ## Scans of the record -/

theorem distinctBy_map {α β : Type} (same : β → β → Bool) (f : α → β) (xs : List α) :
    distinctBy same (xs.map f) = (distinctBy (fun a b => same (f a) (f b)) xs).map f := by
  induction xs with
  | nil => rfl
  | cons x xs ih =>
    rw [List.map_cons, distinctBy, distinctBy, ih, List.filter_map, List.map_cons]
    rfl

namespace Project

variable (g : Declaration → List Annot) (p : Project)

@[simp] theorem find?_reannotate (id : DeclarationId) :
    (p.reannotate g).find? id = (p.find? id).map (Declaration.reannotate g) := by
  unfold find? reannotate
  rw [← List.map_reverse, List.find?_map]
  rfl

theorem current_reannotate (entries : List Declaration) :
    (p.reannotate g).current (entries.map (Declaration.reannotate g)) =
      (p.current entries).map (Declaration.reannotate g) := by
  unfold current
  rw [List.filterMap_map, List.map_filterMap]
  congr 1
  funext d
  exact find?_reannotate g p d.id

/-- An answer that picks entries of the record by what is no annotation. -/
theorem current_filter_reannotate {pick : Declaration → Bool}
    (h : ∀ d, pick (d.reannotate g) = pick d) :
    (p.reannotate g).current ((p.reannotate g).added.filter pick) =
      (p.current (p.added.filter pick)).map (Declaration.reannotate g) := by
  have hpick : pick ∘ Declaration.reannotate g = pick := funext h
  rw [show (p.reannotate g).added = p.added.map (Declaration.reannotate g) from rfl,
    List.filter_map, hpick, current_reannotate]

theorem declarations_reannotate :
    (p.reannotate g).declarations = p.declarations.map (Declaration.reannotate g) := by
  unfold declarations
  rw [show (p.reannotate g).added = p.added.map (Declaration.reannotate g) from rfl,
    distinctBy_map, current_reannotate]
  rfl

theorem filter_map_reannotate {pick : Declaration → Bool} (h : ∀ d, pick (d.reannotate g) = pick d)
    (ds : List Declaration) :
    (ds.map (Declaration.reannotate g)).filter pick =
      (ds.filter pick).map (Declaration.reannotate g) := by
  rw [List.filter_map, show pick ∘ Declaration.reannotate g = pick from funext h]

theorem types_reannotate : (p.reannotate g).types = p.types.map (Declaration.reannotate g) := by
  unfold types
  rw [declarations_reannotate, filter_map_reannotate g fun _ => rfl]

theorem typesNamed_reannotate (name : String) :
    (p.reannotate g).typesNamed name = (p.typesNamed name).map (Declaration.reannotate g) :=
  current_filter_reannotate g p fun _ => rfl

theorem children_reannotate (id : DeclarationId) :
    (p.reannotate g).children id = (p.children id).map (Declaration.reannotate g) :=
  current_filter_reannotate g p fun _ => rfl

theorem inFile_reannotate (file : Path) :
    (p.reannotate g).inFile file = (p.inFile file).map (Declaration.reannotate g) :=
  current_filter_reannotate g p fun _ => rfl

theorem parentOf?_reannotate (d : Declaration) :
    (p.reannotate g).parentOf? (d.reannotate g) =
      (p.parentOf? d).map (Declaration.reannotate g) := by
  unfold parentOf?
  rw [Declaration.reannotate_parent, Option.map_bind]
  congr 1
  funext id
  exact find?_reannotate g p id

theorem fieldsOf_reannotate (owner : Declaration) :
    (p.reannotate g).fieldsOf (owner.reannotate g) =
      (p.fieldsOf owner).map (Declaration.reannotate g) := by
  unfold fieldsOf
  rw [Declaration.reannotate_id, children_reannotate, List.flatMap_map, List.map_flatMap]
  congr 1
  funext child
  rw [Declaration.reannotate_kind]
  split
  · rfl
  · rw [Declaration.reannotate_id, children_reannotate, filter_map_reannotate g fun _ => rfl]
  · rfl

theorem enclosing_reannotate (location : Location) :
    (p.reannotate g).enclosing location =
      (p.enclosing location).map (Declaration.reannotate g) := by
  unfold enclosing
  rw [inFile_reannotate, filter_map_reannotate g fun _ => rfl]
  refine (List.map_mergeSort (f := Declaration.reannotate g) ?_).symm
  intro a _ b _
  rfl

theorem innermost?_reannotate (location : Location) :
    (p.reannotate g).innermost? location =
      (p.innermost? location).map (Declaration.reannotate g) := by
  unfold innermost?
  rw [enclosing_reannotate, List.getLast?_map]

theorem climb_reannotate (n : Nat) (d : Declaration) :
    ancestry.climb (p.reannotate g) n (d.reannotate g) =
      (ancestry.climb p n d).map (Declaration.reannotate g) := by
  induction n generalizing d with
  | zero => rfl
  | succ n ih =>
    unfold ancestry.climb
    rw [parentOf?_reannotate]
    cases p.parentOf? d with
    | none => rfl
    | some parent => simp only [Option.map_some, List.map_cons, ih]

theorem ancestry_reannotate (d : Declaration) :
    (p.reannotate g).ancestry (d.reannotate g) =
      (p.ancestry d).map (Declaration.reannotate g) := by
  unfold ancestry
  rw [← climb_reannotate]
  simp only [reannotate, List.length_map]

/-! ## Types by name -/

theorem hierarchy_reannotate : (p.reannotate g).hierarchy = p.hierarchy := List.foldl_map

theorem isSubtypeOf_reannotate (d : Declaration) (base : String) :
    (p.reannotate g).isSubtypeOf (d.reannotate g) base = p.isSubtypeOf d base := by
  unfold isSubtypeOf
  rw [hierarchy_reannotate]
  rfl

theorem localType?_reannotate (file : Path) (name : String) :
    (p.reannotate g).localType? file name =
      (p.localType? file name).map (Declaration.reannotate g) := by
  unfold localType?
  rw [typesNamed_reannotate, List.find?_map]
  rfl

theorem resolveType?_reannotate (file : Path) (reference qualified : String) :
    (p.reannotate g).resolveType? file reference qualified =
      p.resolveType? file reference qualified := by
  unfold resolveType?
  simp only [localType?_reannotate, Option.isSome_map]
  rfl

theorem outerNames?_reannotate (n : Nat) (parent : Option DeclarationId) :
    (p.reannotate g).outerNames? n parent = p.outerNames? n parent := by
  induction n generalizing parent with
  | zero => cases parent <;> rfl
  | succ n ih =>
    cases parent with
    | none => rfl
    | some id =>
      unfold outerNames?
      rw [find?_reannotate]
      cases p.find? id with
      | none => rfl
      | some outer =>
        simp only [Option.map_some, Option.bind_eq_bind, Option.bind_some, ih,
          Declaration.reannotate_parent, Declaration.reannotate_name]

theorem qualifiedName?_reannotate (d : Declaration) :
    (p.reannotate g).qualifiedName? (d.reannotate g) = p.qualifiedName? d := by
  unfold qualifiedName?
  rw [outerNames?_reannotate]
  simp only [reannotate, List.length_map]
  rfl

theorem declaredInPackage_reannotate (package name : String) :
    (p.reannotate g).declaredInPackage package name = p.declaredInPackage package name := by
  unfold declaredInPackage
  rw [typesNamed_reannotate, List.any_map]
  rfl

theorem qualifyType?_reannotate (file : Path) (written : String) :
    (p.reannotate g).qualifyType? file written = p.qualifyType? file written := by
  unfold qualifyType?
  simp only [localType?_reannotate, declaredInPackage_reannotate]
  split
  · rfl
  · cases p.localType? file (Text.compact (String.ofList (TypeName.bare written))) with
    | none => rfl
    | some d => exact qualifiedName?_reannotate g p d

/-! ## The values of expressions -/

theorem memberField?_reannotate (owner : Declaration) (name : String) :
    (p.reannotate g).memberField? (owner.reannotate g) name =
      (p.memberField? owner name).map (Declaration.reannotate g) := by
  unfold memberField?
  rw [Declaration.reannotate_isType, fieldsOf_reannotate, List.find?_map]
  split <;> rfl

theorem topLevelField?_reannotate (file : Path) (name : String) :
    (p.reannotate g).topLevelField? file name =
      (p.topLevelField? file name).map (Declaration.reannotate g) := by
  unfold topLevelField?
  rw [inFile_reannotate, List.find?_map]
  rfl

/-- The first answer along a list of declarations. -/
theorem findSome?_reannotate {ask ask' : Declaration → Option Declaration}
    (h : ∀ d, ask' (d.reannotate g) = (ask d).map (Declaration.reannotate g))
    (ds : List Declaration) :
    (ds.map (Declaration.reannotate g)).findSome? ask' =
      (ds.findSome? ask).map (Declaration.reannotate g) := by
  rw [List.findSome?_map, List.map_findSome?]
  congr 1
  exact funext h

theorem findField?_reannotate (scope : Option Declaration) (reference : String) :
    (p.reannotate g).findField? (scope.map (Declaration.reannotate g)) reference =
      (p.findField? scope reference).map (Declaration.reannotate g) := by
  unfold findField?
  cases Text.cutAtLast? '.' reference.toList with
  | some cut =>
    simp only [typesNamed_reannotate]
    exact findSome?_reannotate g (fun d => memberField?_reannotate g p d _) _
  | none =>
    cases scope with
    | none => rfl
    | some d =>
      have members : ∀ ds : List Declaration,
          (ds.map (Declaration.reannotate g)).findSome?
              ((p.reannotate g).memberField? · reference) =
            (ds.findSome? (p.memberField? · reference)).map (Declaration.reannotate g) :=
        findSome?_reannotate g fun d => memberField?_reannotate g p d reference
      simp only [Option.map_some, Option.bind_eq_bind, Option.bind_some, ancestry_reannotate,
        members, Declaration.reannotate_location, topLevelField?_reannotate, Option.map_or]

theorem initializerScope_reannotate (field : Declaration) :
    (p.reannotate g).initializerScope (field.reannotate g) =
      (p.initializerScope field).reannotate g := by
  unfold initializerScope
  rw [parentOf?_reannotate]
  cases p.parentOf? field <;> rfl

theorem evaluateWithin?_reannotate (depth : Nat) (scope : Option Declaration) (e : Expr) :
    (p.reannotate g).evaluateWithin? depth (scope.map (Declaration.reannotate g)) e =
      p.evaluateWithin? depth scope e := by
  induction depth generalizing scope e with
  | zero => rfl
  | succ depth ih =>
    cases e with
    | reference path =>
      -- the field found is the same up to annotations, and so is the scope of its initializer
      rw [evaluateWithin?, evaluateWithin?, findField?_reannotate]
      cases p.findField? scope path with
      | none => rfl
      | some field =>
        simp only [Option.map_some, Option.bind_eq_bind, Option.bind_some,
          Declaration.reannotate_initializer, initializerScope_reannotate]
        congr 1
        funext value
        exact ih (some (p.initializerScope field)) value
    | concat operands =>
      rw [evaluateWithin?, evaluateWithin?]
      simp only [ih]
    | _ => rfl

theorem evaluate?_reannotate (scope : Option Declaration) (e : Expr) :
    (p.reannotate g).evaluate? (scope.map (Declaration.reannotate g)) e = p.evaluate? scope e :=
  evaluateWithin?_reannotate g p (maxDepth + 1) scope e

theorem evaluate?_reannotate_some (d : Declaration) (e : Expr) :
    (p.reannotate g).evaluate? (some (d.reannotate g)) e = p.evaluate? (some d) e :=
  evaluate?_reannotate g p (some d) e

theorem evaluateInt?_reannotate_some (d : Declaration) :
    (p.reannotate g).evaluateInt? (some (d.reannotate g)) = p.evaluateInt? (some d) := by
  funext e
  unfold evaluateInt?
  rw [evaluate?_reannotate_some]

theorem leadingTexts_reannotate (scope : Option Declaration) (operands : List Expr) :
    (p.reannotate g).leadingTexts (scope.map (Declaration.reannotate g)) operands =
      p.leadingTexts scope operands := by
  induction operands with
  | nil => rfl
  | cons operand rest ih =>
    unfold leadingTexts textualOperand?
    rw [evaluate?_reannotate, ih]

theorem knownStart?_reannotate (scope : Option Declaration) (e : Expr) :
    (p.reannotate g).knownStart? (scope.map (Declaration.reannotate g)) e =
      p.knownStart? scope e := by
  unfold knownStart?
  simp only [leadingTexts_reannotate, evaluate?_reannotate]

end Project

end AdLint
