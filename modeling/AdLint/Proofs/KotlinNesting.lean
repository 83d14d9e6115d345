import AdLint.Proofs.KotlinTree
import AdLint.Proofs.KotlinVisit

/-!
# Declarations in a Kotlin file nest

A type, a function and a property are declared on the node that they are written by. A type is the
parent of the properties that its primary constructor declares and of what stands in its body, a
function of what stands in its body. A property is not the parent of what stands in its value or its
delegate: that is declared beside it, on a part of its range.

No part has the range of the whole, but for a different reason in each case. A type has a name or,
as a companion object, a keyword; a function has a name; a property has an equals sign before its
value, and a variable before its delegate.

## Main results

* `Kotlin.nested_parameterProperties`: what a primary constructor declares nests
* `Kotlin.nested_visit`: what a placed node declares nests
* `Kotlin.nested_outline`: the declarations of every text nest
* `Kotlin.declarations_outline`: they are those of the visible nodes of its tree
-/

namespace AdLint

open AdLint.Tree (PlacedIn)

variable {lo hi : Nat}

namespace Kotlin

open Harvest (declarations_append)

variable {s : Source} {context : Context}

theorem mem_of_ofKind? {parts : List Node} {kind : Kind} {t : Node}
    (h : ofKind? parts kind = some t) :
    t ∈ parts ∧ t.kind = kind := by
  have hkind := List.find?_some h
  exact ⟨List.mem_of_find?_eq_some h, beq_iff_eq.mp hkind⟩

theorem declarations_visitAll (forest : List Node) :
    (visitAll s context forest).declarations =
      forest.flatMap fun t => (visit s context t).declarations :=
  yield_visitAll Harvest.declared forest

theorem declarations_visitParts (kind : Kind) (forest : List Node) :
    (visitParts s context kind forest).declarations =
      forest.flatMap fun t =>
        if t.kind == kind then (visitAll s context t.parts).declarations else [] :=
  yield_visitParts Harvest.declared kind forest

theorem declarations_importOf (parts : List Node) : (importOf s parts).declarations = [] := by
  rw [importOf]
  split <;> rfl

/-! ### The properties of a primary constructor -/

theorem classParametersIn_eq (forest : List Node) :
    classParametersIn forest = forest.flatMap classParameters := by
  induction forest with
  | nil => rfl
  | cons t forest ih => rw [classParametersIn, ih, List.flatMap_cons]

/-- The parameters of classes in a node follow one another inside it. -/
theorem placedIn_classParameters {t : Node} (ht : t.Placed)
    (hspan : t.span.start.byte < t.span.stop) :
    PlacedIn t.span.start.byte t.span.stop (classParameters t) := by
  induction ht with
  | @node kind role span parts hspans hplaced ih =>
    have hparts : PlacedIn span.start.byte span.stop parts := ⟨hspans, hplaced⟩
    rw [classParameters]
    split
    · exact ⟨⟨le_rfl, hspan, le_refl _⟩, by simpa using Tree.Placed.node hspans hplaced⟩
    · rw [classParametersIn_eq]
      exact hparts.flatMap fun u hu => ih u hu (hparts.mem hu).2.1

theorem writtenOn_of_parameterProperty? {owner : DeclarationId} {t : Node} {d : Declaration}
    (h : parameterProperty? s owner t = some d) :
    d.WrittenOn s.path t.span ∧ d.parent = some owner := by
  rw [parameterProperty?] at h
  split at h
  · obtain ⟨name, -, h⟩ := Option.bind_eq_some_iff.mp h
    cases h
    exact ⟨⟨rfl, rfl⟩, rfl⟩
  · cases h

/-- The properties that the primary constructor of a class declares stand directly in the class, on
the range of the constructor. -/
theorem nested_parameterProperties (owner : DeclarationId) {parts : List Node}
    (hparts : PlacedIn lo hi parts) :
    parameterProperties s owner parts = [] ∨
      ∃ t ∈ parts, t.kind = .primaryConstructor ∧
        Nested s.path (some owner) t.span.start.byte t.span.stop
          (parameterProperties s owner parts) := by
  rw [parameterProperties]
  split
  · next t ht =>
    obtain ⟨hmem, hkind⟩ := mem_of_ofKind? ht
    have hnodes : PlacedIn t.span.start.byte t.span.stop (classParametersIn t.parts) := by
      rw [classParametersIn_eq]
      have hinner := (hparts.placed t hmem).placedIn_parts
      exact hinner.flatMap fun u hu =>
        placedIn_classParameters (hinner.placed u hu) (hinner.mem hu).2.1
    -- none of the properties stands in another one, so it does not matter that the last comes first
    refine .inr ⟨t, hmem, hkind, Nested.reverse ?_ fun d hd => ?_⟩
    · rw [List.filterMap_eq_flatMap_toList]
      refine .flatMap hnodes fun u hu => ?_
      cases hd : parameterProperty? s owner u with
      | none => exact .nil
      | some d =>
        obtain ⟨hwritten, hparent⟩ := writtenOn_of_parameterProperty? hd
        exact .singleton hwritten (hnodes.mem hu).2.1 hparent
    · obtain ⟨u, -, hu⟩ := List.mem_filterMap.mp hd
      exact (writtenOn_of_parameterProperty? hu).2
  · exact .inl rfl

/-! ### Types, functions and properties -/

/-- A type has a part that is neither its body nor its constructor: its name, or else a keyword. -/
theorem exists_part_of_typeOf? {parent : Option DeclarationId} {kind : Kind} {span : Span}
    {parts : List Node} {d : Declaration} (h : typeOf? s parent kind span parts = some d) :
    ∃ t ∈ parts, t.kind = .typeName ∨ t.kind = .token := by
  obtain ⟨named, hname, -⟩ := Option.map_eq_some_iff.mp h
  rw [typeNameOf?] at hname
  split at hname
  · next t ht =>
    obtain ⟨hmem, hkind⟩ := mem_of_ofKind? ht
    exact ⟨t, hmem, .inl hkind⟩
  · split at hname
    · next hcompanion =>
      rw [Bool.and_eq_true, hasToken, List.any_eq_true] at hcompanion
      obtain ⟨-, t, ht, htoken⟩ := hcompanion
      rw [Bool.and_eq_true, Tree.isNamed, Bool.not_not] at htoken
      exact ⟨t, ht, .inr (beq_iff_eq.mp htoken.1)⟩
    · cases hname

theorem writtenOn_of_fieldOf? {parent : Option DeclarationId} {span : Span} {parts : List Node}
    {d : Declaration} (h : fieldOf? s parent span parts = some d) :
    d.WrittenOn s.path span ∧ d.parent = parent := by
  obtain ⟨declared, -, h⟩ := Option.bind_eq_some_iff.mp h
  obtain ⟨name, -, h⟩ := Option.bind_eq_some_iff.mp h
  cases h
  exact ⟨⟨rfl, rfl⟩, rfl⟩

theorem exists_variable_of_fieldOf? {parent : Option DeclarationId} {span : Span}
    {parts : List Node}
    {d : Declaration} (h : fieldOf? s parent span parts = some d) :
    ∃ t ∈ parts, t.kind = .variable := by
  obtain ⟨declared, hdeclared, -⟩ := Option.bind_eq_some_iff.mp h
  obtain ⟨hmem, hkind⟩ := mem_of_ofKind? hdeclared
  exact ⟨declared, hmem, hkind⟩

theorem nested_visitAll {forest : List Node} (hforest : PlacedIn lo hi forest)
    (hvisit : ∀ t ∈ forest,
      Nested s.path context.parent t.span.start.byte t.span.stop (visit s context t).declarations) :
    Nested s.path context.parent lo hi (visitAll s context forest).declarations := by
  rw [declarations_visitAll]
  exact .flatMap hforest hvisit

/-- A type, then the properties of its constructor, then what stands in its body. -/
theorem nested_type {parent : Option DeclarationId} {t : Node} {d : Declaration}
    (hd : typeOf? s parent t.kind t.span t.parts = some d) (ht : t.Placed)
    (hspan : t.span.start.byte < t.span.stop)
    (hbodies : ∀ u ∈ t.parts, Nested s.path (some d.id) u.span.start.byte u.span.stop
      (visitAll s { parent := some d.id } u.parts).declarations) :
    Nested s.path parent t.span.start.byte t.span.stop
      (d :: (parameterProperties s d.id t.parts ++
        (visitParts s { parent := some d.id } .classBody t.parts).declarations)) := by
  obtain ⟨hwritten, hparent⟩ := writtenOn_of_typeOf? hd
  obtain ⟨v, hv, hkind⟩ := exists_part_of_typeOf? hd
  have hnobody : (v.kind == .classBody) = false := by
    rcases hkind with h | h <;> rw [h] <;> rfl
  rw [declarations_visitParts]
  -- the constructor is one part, the body another one, and the name or keyword is neither
  rcases nested_parameterProperties d.id ht.placedIn_parts with hnone | ⟨c, hc, hckind, hproperties⟩
  · rw [hnone]
    exact .cons_select hwritten ht hspan hparent hv hnobody fun u hu _ => hbodies u hu
  · have hcv : c ≠ v := by
      rintro rfl
      rw [hckind] at hkind
      rcases hkind with h | h <;> cases h
    exact .cons_part_select hwritten ht hspan hparent hv hnobody hc (by rw [hckind]; rfl) hcv
      hproperties fun u hu _ => hbodies u hu

/-- A function and then what stands in its body. -/
theorem nested_function {parent : Option DeclarationId} {t name : Node} {d : Declaration}
    (hd : d.WrittenOn s.path t.span) (ht : t.Placed) (hspan : t.span.start.byte < t.span.stop)
    (hparent : d.parent = parent) (hname : ofKind? t.parts .name = some name)
    (hbodies : ∀ u ∈ t.parts, Nested s.path (some d.id) u.span.start.byte u.span.stop
      (visitAll s { parent := some d.id, inFunction := true } u.parts).declarations) :
    Nested s.path parent t.span.start.byte t.span.stop
      (d :: (visitParts s { parent := some d.id, inFunction := true } .functionBody
        t.parts).declarations) := by
  obtain ⟨hmem, hkind⟩ := mem_of_ofKind? hname
  rw [declarations_visitParts]
  exact .cons_select hd ht hspan hparent hmem (by rw [hkind]; rfl) fun u hu _ => hbodies u hu

/-- A property and then what stands in its value or its delegate, beside it. -/
theorem nested_property {t : Node} {d : Declaration}
    (hd : fieldOf? s context.parent t.span t.parts = some d) (ht : t.Placed)
    (hspan : t.span.start.byte < t.span.stop)
    (hvisit : ∀ u ∈ t.parts,
      Nested s.path context.parent u.span.start.byte u.span.stop (visit s context u).declarations)
    (hdelegates : ∀ u ∈ t.parts, Nested s.path context.parent u.span.start.byte u.span.stop
      (visitAll s context u.parts).declarations) :
    Nested s.path context.parent t.span.start.byte t.span.stop
      (d :: (if (valueOf? s t.parts).isSome then visitValue s context false t.parts
        else visitParts s context .delegate t.parts).declarations) := by
  obtain ⟨hwritten, hparent⟩ := writtenOn_of_fieldOf? hd
  split
  · next hvalue =>
    obtain ⟨u, hu⟩ := Option.isSome_iff_exists.mp hvalue
    obtain ⟨hmem, v, hv, hne⟩ := mem_of_valueOf? hu
    obtain ⟨hlo, -, hhi⟩ := ht.placedIn_parts.mem hmem
    rw [visitValue_false, hu, Option.map_some, Option.getD_some]
    exact .cons_beside hwritten hspan hparent ((hvisit u hmem).mono hlo hhi) fun x hx =>
      (hvisit u hmem).encloses hwritten ht hmem hv hne hx
  · obtain ⟨v, hv, hkind⟩ := exists_variable_of_fieldOf? hd
    rw [declarations_visitParts]
    exact .cons_beside_select hwritten ht hspan hparent hv (by rw [hkind]; rfl) fun u hu _ =>
      hdelegates u hu

/-- **What a node declares nests**, and so does what each of its parts declares. -/
theorem nested_visit {t : Node} (ht : t.Placed) (hspan : t.span.start.byte < t.span.stop)
    (context : Context) :
    Nested s.path context.parent t.span.start.byte t.span.stop (visit s context t).declarations ∧
      ∀ u ∈ t.parts,
        Nested s.path context.parent u.span.start.byte u.span.stop
          (visit s context u).declarations := by
  induction ht generalizing context with
  | @node kind role span parts hspans hplaced ih =>
    have ht : Tree.Placed (.node kind role span parts) := .node hspans hplaced
    have hparts : PlacedIn span.start.byte span.stop parts := ⟨hspans, hplaced⟩
    have hvisit : ∀ context : Context, ∀ u ∈ parts,
        Nested s.path context.parent u.span.start.byte u.span.stop
          (visit s context u).declarations :=
      fun context u hu => (ih u hu (hparts.mem hu).2.1 context).1
    -- bodies and delegates are visited two levels down
    have hbodies : ∀ context : Context, ∀ u ∈ parts,
        Nested s.path context.parent u.span.start.byte u.span.stop
          (visitAll s context u.parts).declarations :=
      fun context u hu => nested_visitAll (hplaced u hu).placedIn_parts
        (ih u hu (hparts.mem hu).2.1 context).2
    have hall := nested_visitAll hparts (hvisit context)
    refine ⟨?_, hvisit context⟩
    cases kind with
    | packageClause => exact .nil
    | importClause =>
      rw [visit, declarations_importOf]
      exact .nil
    | classDeclaration | objectDeclaration | companion =>
      rw [visit]
      split
      · next d hd => exact nested_type hd ht hspan (hbodies { parent := some d.id })
      · exact hall
    | property =>
      rw [visit]
      split
      · next d hd =>
        split at hd
        · cases hd
        · exact nested_property hd ht hspan (hvisit context) (hbodies context)
      · exact hall
    | function =>
      rw [visit]
      split
      · next name hname =>
        exact nested_function ⟨rfl, rfl⟩ ht hspan rfl hname
          (hbodies { parent := some (s.identify span), inFunction := true })
      · exact hall
    | call =>
      rw [visit, declarations_append]
      exact hall
    | _ => exact hall

/-- **The declarations of a Kotlin file nest.** -/
theorem nested_outline (path : Path) (text : String) :
    ∃ hi, Nested path none 0 hi (outline path text).declarations := by
  obtain ⟨hi, htree⟩ := placed_tree text
  have hvisit := fun t (ht : t ∈ tree text) =>
    (nested_visit (s := { path, text }) (htree.placed t ht) (htree.mem ht).2.1 {}).1
  exact ⟨hi, nested_visitAll htree hvisit⟩

/-- The declarations of a Kotlin file are those of the visible nodes of its tree. -/
theorem declarations_outline (path : Path) (text : String) :
    (outline path text).declarations =
      (Tree.visibleIn (passesOver { path, text }) (tree text)).flatMap fun o =>
        (own { path, text } o).declarations := by
  obtain ⟨hi, htree⟩ := placed_tree text
  rw [← Tree.flatMap_gather]
  exact yield_visitForest Harvest.declared htree

end Kotlin

end AdLint
