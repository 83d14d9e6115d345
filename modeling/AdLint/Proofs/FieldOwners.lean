import AdLint.Proofs.JavaNesting
import AdLint.Proofs.KotlinNesting
import Mathlib.Data.List.Forall2

/-!
# The owners of fields

A field is recorded for each variable of a field declaration, and in Kotlin for each property
outside of functions and for each parameter of a primary constructor that declares a property. Its
parent is the innermost type or method around it. What has no name of its own is no owner: a block
that initializes objects, a lambda, the body of an anonymous class. What is declared there is
recorded for the type around it, and in Kotlin the local variables of such blocks with it.

## Main definitions

* `RecordsField`: a field is recorded for a node, and belongs to the innermost owner around it
* `Java.fieldNodes`, `Kotlin.fieldNodes`: the nodes of a tree that fields are recorded for

## Main results

* `Java.recordsField_outline`, `Kotlin.recordsField_outline`: one field is recorded for each such
  node
* `Kotlin.kind_ne_function_of_mem_fieldNodes`: no field of a Kotlin file belongs to a function
* `fields_stand_in_innermost_owner`: the fields of a file and their parents
-/

namespace AdLint

open AdLint.Tree (EveryIn visibleIn)

/-- The fields among some declarations. -/
def fieldsAmong (declarations : List Declaration) : List Declaration :=
  declarations.filter fun d => d.kind == .field

/-- A field is recorded for a node: on its range, by its name, and with the innermost node around it
that owns declarations as its parent. -/
structure RecordsField {κ : Type} (s : Source) (owns : Tree κ → Bool)
    (name? : Tree κ → Option (Tree κ))
    (d : Declaration) (o : Occurrence κ) : Prop where
  id : d.id = s.identify o.node.span
  name : (name? o.node).map (fun name => s.slice name.span) = some d.name
  parent : d.parent = (o.around.find? owns).map fun t => s.identify t.span

theorem fieldsAmong_flatMap {α : Type} (f : α → List Declaration) (l : List α) :
    fieldsAmong (l.flatMap f) = l.flatMap fun a => fieldsAmong (f a) :=
  List.filter_flatMap

/-! ## Java -/

namespace Java

variable {s : Source} {starts : Place → Prop}

/-- Whether a node is a declarator of a field, and not of a local variable. -/
def isFieldDeclarator (o : Occurrence Kind) : Bool :=
  o.node.kind == .declarator && o.around.head?.any fun whole => whole.kind == .field

/-- The declarators of fields in a forest, in the order of the text. -/
def fieldNodes (forest : List Node) : List (Occurrence Kind) :=
  (visibleIn passesOver forest).filter isFieldDeclarator

/-- The name that a node declares something by. -/
def nameOf? (t : Node) : Option Node := t.part? .name

theorem fieldsAmong_own_of_not_isFieldDeclarator {o : Occurrence Kind}
    (ho : o.node.Every (promise starts).Met) (hfield : isFieldDeclarator o = false) :
    fieldsAmong (own s o).declarations = [] := by
  rw [isFieldDeclarator] at hfield
  rw [own]
  cases hkind : o.node.kind with
  | importClause =>
    simp only [declarations_importOf]
    rfl
  | invocation =>
    simp only [declarations_invocationOf]
    rfl
  | creation =>
    simp only [declarations_creationOf]
    rfl
  | typeDeclaration type =>
    -- a type of this kind would be taken for a field, but the grammar has none
    have htype : type ≠ .field := by
      rintro rfl
      exact kind_ne_field_of_every ho hkind
    dsimp only
    split
    · exact List.filter_eq_nil_iff.mpr (by simpa [declarationOf] using htype)
    · rfl
  | method =>
    dsimp only
    split <;> rfl
  | declarator =>
    rw [hkind, beq_self_eq_true, Bool.true_and] at hfield
    dsimp only
    split
    · next whole hwhole =>
      rw [hwhole, Option.any_some] at hfield
      rw [hfield]
      rfl
    · rfl
  | _ => rfl

/-- One field is recorded for each declarator of a field. -/
theorem recordsField_own {o : Occurrence Kind} (ho : o.node.Every (promise starts).Met)
    (hfield : isFieldDeclarator o = true) :
    ∃ d, fieldsAmong (own s o).declarations = [d] ∧ RecordsField s owns nameOf? d o := by
  obtain ⟨hkind, hwhole⟩ := Bool.and_eq_true_iff.mp hfield
  have hkind : o.node.kind = .declarator := beq_iff_eq.mp hkind
  obtain ⟨whole, hhead, hwhole⟩ := (Option.any_eq_true _ _).mp hwhole
  obtain ⟨name, hname⟩ := exists_inRole? (ho.here.needed (.role .name) (by simp [hkind]))
  have hown :
      own s o = fieldOf s (ownerOf s o.around) whole.span whole.parts o.node.span o.node.parts := by
    simp only [own, hkind, hhead, hwhole, if_true]
  rw [hown, fieldOf, hname]
  refine ⟨_, rfl, rfl, ?_, rfl⟩
  show (inRole? o.node.parts .name).map _ = _
  rw [hname]
  rfl

/-- The fields of a Java file are those of the declarators in its tree, one for each. -/
theorem recordsField_outline (path : Path) (text : String) :
    List.Forall₂ (RecordsField { path, text } owns nameOf?)
      (fieldsAmong (outline path text).declarations) (fieldNodes (tree text)) := by
  have htree : EveryIn (promise fun _ => True).Met (tree text) :=
    everyIn_tree fun t _ => ⟨trivial, fun _ _ => trivial⟩
  have hvisible :
      ∀ o ∈ visibleIn passesOver (tree text), o.node.Every (promise fun _ => True).Met :=
    fun o ho => htree.of_mem_occurrencesIn (List.mem_of_mem_filter ho)
  have hfields : fieldsAmong (outline path text).declarations =
      (fieldNodes (tree text)).flatMap fun o =>
        fieldsAmong (own { path, text } o).declarations := by
    rw [declarations_outline, fieldsAmong_flatMap, fieldNodes, flatMap_filter_of_eq_nil fun o ho =>
      fieldsAmong_own_of_not_isFieldDeclarator (hvisible o ho)]
  rw [hfields]
  refine forall₂_flatMap fun o ho => ?_
  obtain ⟨ho, hfield⟩ := List.mem_filter.mp ho
  exact recordsField_own (hvisible o ho) hfield

end Java

/-! ## Kotlin -/

namespace Kotlin

variable {s : Source}

/-- Whether a parameter of a class declares a property. -/
def declaresProperty (t : Node) : Bool :=
  (t.parts.any fun part => part.kind == .binding) && (ofKind? t.parts .name).isSome

/-- The properties in the primary constructor of a class, the last one first. -/
def parameterNodes (t : Node) : List Node :=
  match ofKind? t.parts .primaryConstructor with
  | some constructor => ((classParametersIn constructor.parts).filter declaresProperty).reverse
  | none => []

/-- The nodes that fields are recorded for where a node stands: a property that is no
local variable, or the properties in the primary constructor of a type. -/
def fieldNodesAt (s : Source) (o : Occurrence Kind) : List (Occurrence Kind) :=
  match o.node.kind with
  | .classDeclaration | .objectDeclaration | .companion =>
    if hasTypeName s o.node then (parameterNodes o.node).map fun t => ⟨t, o.node :: o.around⟩
    else []
  | .property => if isField s o.node o.around then [o] else []
  | _ => []

/-- The nodes of a forest that fields are recorded for. -/
def fieldNodes (s : Source) (forest : List Node) : List (Occurrence Kind) :=
  (visibleIn (passesOver s) forest).flatMap (fieldNodesAt s)

/-- The name of a property or of a parameter. -/
def nameOf? (t : Node) : Option Node :=
  match t.kind with
  | .property => (ofKind? t.parts .variable).bind fun declared => ofKind? declared.parts .name
  | _ => ofKind? t.parts .name

/-! ### Properties of constructors -/

theorem declaresProperty_eq (owner : DeclarationId) (t : Node) :
    declaresProperty t = (parameterProperty? s owner t).isSome := by
  rw [declaresProperty, parameterProperty?]
  split
  · next h => rw [h]; cases ofKind? t.parts .name <;> rfl
  · next h => rw [Bool.not_eq_true] at h; rw [h]; rfl

theorem kind_of_mem_classParameters {t u : Node} (h : u ∈ classParameters t) :
    u.kind = .classParameter := by
  induction t using Tree.induct with
  | node t ih =>
    obtain ⟨kind, role, span, parts⟩ := t
    rw [classParameters] at h
    split at h
    · next hkind =>
      obtain rfl := List.mem_singleton.mp h
      exact beq_iff_eq.mp hkind
    · rw [classParametersIn_eq] at h
      obtain ⟨v, hv, hu⟩ := List.mem_flatMap.mp h
      exact ih v hv hu

/-- A property in a primary constructor belongs to the type that is constructed. -/
theorem recordsField_parameter {t u : Node} {around : List Node} {d : Declaration}
    (ht : owns s t = true)
    (hu : u.kind = .classParameter) (h : parameterProperty? s (s.identify t.span) u = some d) :
    RecordsField s (owns s) nameOf? d ⟨u, t :: around⟩ := by
  rw [parameterProperty?] at h
  split at h
  · obtain ⟨name, hname, h⟩ := Option.bind_eq_some_iff.mp h
    cases h
    refine ⟨rfl, ?_, ?_⟩
    · simp only [nameOf?, hu, hname]
      rfl
    · rw [List.find?_cons_of_pos ht]
      rfl
  · cases h

theorem fieldsAmong_parameterProperties (owner : DeclarationId) (parts : List Node) :
    fieldsAmong (parameterProperties s owner parts) = parameterProperties s owner parts := by
  refine List.filter_eq_self.mpr fun d hd => ?_
  rw [parameterProperties] at hd
  split at hd
  · obtain ⟨u, -, hu⟩ := List.mem_filterMap.mp (List.mem_reverse.mp hd)
    rw [parameterProperty?] at hu
    split at hu
    · obtain ⟨name, -, hu⟩ := Option.bind_eq_some_iff.mp hu
      cases hu
      rfl
    · cases hu
  · cases hd

theorem recordsField_parameters {t : Node} {around : List Node} (ht : owns s t = true) :
    List.Forall₂ (RecordsField s (owns s) nameOf?)
      (parameterProperties s (s.identify t.span) t.parts)
      ((parameterNodes t).map fun u => ⟨u, t :: around⟩) := by
  rw [parameterProperties, parameterNodes]
  cases ofKind? t.parts .primaryConstructor with
  | none => exact .nil
  | some constructor =>
    rw [List.forall₂_map_right_iff, List.forall₂_reverse_iff]
    refine forall₂_filterMap_filter (fun u _ => declaresProperty_eq _ u) fun u hu d hd => ?_
    rw [classParametersIn_eq] at hu
    obtain ⟨v, -, hu⟩ := List.mem_flatMap.mp hu
    exact recordsField_parameter ht (kind_of_mem_classParameters hu) hd

/-! ### The fields of a file -/

theorem kind_ne_field_of_typeOf? {parent : Option DeclarationId} {kind : Kind} {span : Span}
    {parts : List Node} {d : Declaration} (h : typeOf? s parent kind span parts = some d) :
    d.kind ≠ .field := by
  obtain ⟨⟨name, anchor⟩, -, h⟩ := Option.map_eq_some_iff.mp h
  cases h
  show typeKindOf s kind parts ≠ .field
  unfold typeKindOf
  split
  · simp
  · simp
  · split
    · simp
    · split <;> simp

theorem fieldNodesAt_of_type {o : Occurrence Kind}
    (hkind : o.node.kind = .classDeclaration ∨ o.node.kind = .objectDeclaration ∨
      o.node.kind = .companion) :
    fieldNodesAt s o = if owns s o.node then
      (parameterNodes o.node).map fun t => ⟨t, o.node :: o.around⟩ else [] := by
  rw [owns_of_type hkind]
  rcases hkind with hkind | hkind | hkind <;> rw [fieldNodesAt, hkind]

theorem recordsField_type {o : Occurrence Kind}
    (hkind : o.node.kind = .classDeclaration ∨ o.node.kind = .objectDeclaration ∨
      o.node.kind = .companion) :
    List.Forall₂ (RecordsField s (owns s) nameOf?) (fieldsAmong (own s o).declarations)
      (fieldNodesAt s o) := by
  have howns : owns s o.node =
      (typeOf? s (ownerOf s o.around) o.node.kind o.node.span o.node.parts).isSome := by
    rw [owns_of_type hkind, hasTypeName_eq]
  rw [own_of_type hkind, fieldNodesAt_of_type hkind]
  cases htype : typeOf? s (ownerOf s o.around) o.node.kind o.node.span o.node.parts with
  | none =>
    rw [howns, htype]
    exact .nil
  | some type =>
    rw [htype] at howns
    have hid : type.id = s.identify o.node.span := (writtenOn_of_typeOf? htype).1.id_eq
    have hfields : fieldsAmong (type :: parameterProperties s type.id o.node.parts) =
        parameterProperties s (s.identify o.node.span) o.node.parts := by
      rw [fieldsAmong, List.filter_cons_of_neg (by simpa using kind_ne_field_of_typeOf? htype), hid]
      exact fieldsAmong_parameterProperties _ _
    rw [hfields, howns]
    exact recordsField_parameters howns

theorem recordsField_property {o : Occurrence Kind} (hkind : o.node.kind = .property) :
    List.Forall₂ (RecordsField s (owns s) nameOf?) (fieldsAmong (own s o).declarations)
      (fieldNodesAt s o) := by
  have hnodes : fieldNodesAt s o = if isField s o.node o.around then [o] else [] := by
    rw [fieldNodesAt, hkind]
  rw [hnodes, isField_eq o.node o.around (ownerOf s o.around)]
  cases hfield : (if inFunction s o.around then none else
      fieldOf? s (ownerOf s o.around) o.node.span o.node.parts) with
  | none =>
    simp only [own, hkind, hfield]
    exact .nil
  | some field =>
    simp only [own, hkind, hfield]
    obtain ⟨-, hfield⟩ := Option.ite_none_left_eq_some.mp hfield
    obtain ⟨declared, hdeclared, hfield⟩ := Option.bind_eq_some_iff.mp hfield
    obtain ⟨name, hname, hfield⟩ := Option.bind_eq_some_iff.mp hfield
    cases hfield
    refine .cons ⟨rfl, ?_, rfl⟩ .nil
    simp only [nameOf?, hkind, hdeclared, Option.bind_some, hname]
    rfl

/-- One field is recorded for each of the nodes that a node declares fields by. -/
theorem recordsField_own (o : Occurrence Kind) :
    List.Forall₂ (RecordsField s (owns s) nameOf?) (fieldsAmong (own s o).declarations)
      (fieldNodesAt s o) := by
  cases hkind : o.node.kind with
  | classDeclaration | objectDeclaration | companion => exact recordsField_type (by simp [hkind])
  | property => exact recordsField_property hkind
  | importClause =>
    simp only [own, fieldNodesAt, hkind, declarations_importOf]
    exact .nil
  | function =>
    simp only [own, fieldNodesAt, hkind]
    cases ofKind? o.node.parts .name with
    | none => exact .nil
    | some name => exact .nil
  | _ =>
    simp only [own, fieldNodesAt, hkind]
    exact .nil

/-- The fields of a Kotlin file are those of the properties in its tree, one for each. -/
theorem recordsField_outline (path : Path) (text : String) :
    List.Forall₂ (RecordsField { path, text } (owns { path, text }) nameOf?)
      (fieldsAmong (outline path text).declarations) (fieldNodes { path, text } (tree text)) := by
  rw [declarations_outline, fieldsAmong_flatMap, fieldNodes]
  exact forall₂_flatMap_flatMap fun o _ => recordsField_own o

/-! ### No field belongs to a function -/

/-- Nodes stand in a function exactly if their innermost owner is one. -/
theorem inFunction_eq (around : List Node) :
    inFunction s around = (around.find? (owns s)).any fun t => t.kind == .function := by
  induction around with
  | nil => rfl
  | cons t around ih =>
    cases howns : owns s t with
    | false =>
      have hcontext := congrArg Context.inFunction (contextOf_cons_of_not_owns around howns)
      rw [List.find?_cons_of_neg (by simp [howns]), ← ih]
      exact hcontext
    | true =>
      rw [List.find?_cons_of_pos howns, Option.any_some, inFunction]
      unfold owns at howns
      split at howns
      all_goals simp_all

/-- No field belongs to a function: what a function declares are its local variables. -/
theorem kind_ne_function_of_mem_fieldNodes {forest : List Node} {o : Occurrence Kind} {owner : Node}
    (ho : o ∈ fieldNodes s forest) (howner : o.around.find? (owns s) = some owner) :
    owner.kind ≠ .function := by
  obtain ⟨site, -, ho⟩ := List.mem_flatMap.mp ho
  cases hkind : site.node.kind with
  | classDeclaration | objectDeclaration | companion =>
    rw [fieldNodesAt_of_type (by simp [hkind])] at ho
    split at ho
    · next howns =>
      -- the type itself comes first around the properties of its constructor
      obtain ⟨t, -, rfl⟩ := List.mem_map.mp ho
      rw [List.find?_cons_of_pos howns] at howner
      obtain rfl := Option.some.inj howner
      simp [hkind]
    · cases ho
  | property =>
    simp only [fieldNodesAt, hkind] at ho
    split at ho
    · next hfield =>
      obtain rfl := List.mem_singleton.mp ho
      rw [isField, inFunction_eq, howner, Option.any_some] at hfield
      intro hfunction
      simp [hfunction] at hfield
    · cases ho
  | _ =>
    simp only [fieldNodesAt, hkind] at ho
    cases ho

end Kotlin

/-! ## The fields of a file -/

/-- **A field belongs to the innermost type or method around it.** In a Java file one field is
recorded for each declarator of a field, and in a Kotlin file one for each property outside of
functions and for each property in a primary constructor. The parent is the innermost named
declaration around that node, however many nodes without a name stand between the two; in a Kotlin
file it is never a function. -/
theorem fields_stand_in_innermost_owner (path : Path) (text : String) :
    List.Forall₂ (RecordsField { path, text } Java.owns Java.nameOf?)
        (fieldsAmong (Java.outline path text).declarations) (Java.fieldNodes (Java.tree text)) ∧
      List.Forall₂ (RecordsField { path, text } (Kotlin.owns { path, text }) Kotlin.nameOf?)
        (fieldsAmong (Kotlin.outline path text).declarations)
        (Kotlin.fieldNodes { path, text } (Kotlin.tree text)) ∧
      ∀ o ∈ Kotlin.fieldNodes { path, text } (Kotlin.tree text), ∀ owner,
        o.around.find? (Kotlin.owns { path, text }) = some owner → owner.kind ≠ .function := by
  refine ⟨Java.recordsField_outline path text, Kotlin.recordsField_outline path text, ?_⟩
  intro o ho owner howner
  exact Kotlin.kind_ne_function_of_mem_fieldNodes ho howner

/-- A class with a local variable in the block that initializes its objects. -/
def initializedClass : String := "class A \x7b\n    init \x7b\n        val x = 1\n    \x7d\n\x7d\n"

/-- **A field need not be a member of its parent.** The variable of the block is recorded as a field
of the class, although no property stands directly in the body of a class and no class has a
parameter. -/
theorem block_variable_recorded_as_field :
    (∃ d ∈ fieldsAmong (Kotlin.outline ⟨"A.kt"⟩ initializedClass).declarations,
        ∃ cls ∈ (Kotlin.outline ⟨"A.kt"⟩ initializedClass).declarations,
          d.name = "x" ∧ cls.name = "A" ∧ cls.kind = .classType ∧ d.parent = some cls.id) ∧
      ∀ o ∈ Tree.occurrencesIn [] (Kotlin.tree initializedClass),
        o.node.kind ≠ .classParameter ∧
          (o.node.kind = .property → ∀ outer ∈ o.around.head?, outer.kind ≠ .classBody) := by
  have hfield : ((fieldsAmong (Kotlin.outline ⟨"A.kt"⟩ initializedClass).declarations).any fun d =>
      (Kotlin.outline ⟨"A.kt"⟩ initializedClass).declarations.any fun cls =>
        d.name == "x" && cls.name == "A" && cls.kind == .classType && d.parent == some cls.id) =
          true := by
    decide +kernel
  have hnodes : ((Tree.occurrencesIn [] (Kotlin.tree initializedClass)).all fun o =>
      o.node.kind != .classParameter &&
        (o.node.kind != .property || o.around.head?.all fun outer => outer.kind != .classBody)) =
          true := by
    decide +kernel
  refine ⟨?_, fun o ho => ?_⟩
  · obtain ⟨d, hd, hfield⟩ := List.any_eq_true.mp hfield
    obtain ⟨cls, hcls, hfield⟩ := List.any_eq_true.mp hfield
    refine ⟨d, hd, cls, hcls, ?_⟩
    simpa [and_assoc] using hfield
  · obtain ⟨hparameter, hproperty⟩ := Bool.and_eq_true_iff.mp (List.all_eq_true.mp hnodes o ho)
    refine ⟨by simpa using hparameter, fun hkind outer houter => ?_⟩
    rw [hkind, Option.mem_def.mp houter] at hproperty
    simpa using hproperty

end AdLint
