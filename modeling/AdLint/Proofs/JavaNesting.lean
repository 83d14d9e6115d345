import AdLint.Proofs.JavaTree
import AdLint.Proofs.JavaVisit

/-!
# Declarations in a Java file nest

A type, a method and a field are declared on the node that they are written by, or on the declarator
of the field. A type or a method is the parent of what stands in its bodies. A field is not the
parent of what stands in its value: that is declared beside it, on a part of its range. A node that
declares something has a name outside of what is visited inside it, so that no part has the range of
the whole.

## Main results

* `Java.nested_visit`: what a placed node declares nests
* `Java.nested_outline`: the declarations of every text nest
* `Java.declarations_outline`: they are those of the visible nodes of its tree
-/

namespace AdLint

open AdLint.Tree (PlacedIn)

variable {lo hi : Nat}

namespace Java

open Harvest (declarations_append)

variable {s : Source} {parent : Option DeclarationId}

theorem declarations_visitAll (forest : List Node) :
    (visitAll s parent forest).declarations =
      forest.flatMap fun t => (visit s parent t).declarations :=
  yield_visitAll Harvest.declared forest

theorem declarations_visitBodies (forest : List Node) :
    (visitBodies s parent forest).declarations =
      forest.flatMap fun t =>
        if t.role == .body then (visitAll s parent t.parts).declarations else [] :=
  yield_visitBodies Harvest.declared forest

theorem declarations_visitValues (forest : List Node) :
    (visitValues s parent forest).declarations =
      forest.flatMap fun t => if t.role == .value then (visit s parent t).declarations else [] :=
  yield_visitValues Harvest.declared forest

theorem declarations_visitDeclarators (field : Span → List Node → Harvest) (forest : List Node) :
    (visitDeclarators s parent field forest).declarations =
      forest.flatMap fun t =>
        if t.kind == .declarator then
          (field t.span t.parts).declarations ++ (visitValues s parent t.parts).declarations
        else [] :=
  yield_visitDeclarators Harvest.declared field forest

theorem mem_of_inRole? {parts : List Node} {role : Role} {t : Node}
    (h : inRole? parts role = some t) :
    t ∈ parts ∧ t.role = role := by
  have hrole := List.find?_some h
  exact ⟨List.mem_of_find?_eq_some h, beq_iff_eq.mp hrole⟩

theorem declarations_importOf (parts : List Node) : (importOf s parts).declarations = [] := by
  rw [importOf]
  split <;> rfl

theorem declarations_invocationOf (span : Span) (parts : List Node) :
    (invocationOf s span parts).declarations = [] := by
  rw [invocationOf]
  split <;> rfl

theorem declarations_creationOf (span : Span) (parts : List Node) :
    (creationOf s span parts).declarations = [] := by
  rw [creationOf]
  split <;> rfl

/-- What a declarator makes: its field, if it has a name, and then what stands in its value. -/
theorem nested_declarator {whole : Span} {parts : List Node} {t : Node} (ht : t.Placed)
    (hspan : t.span.start.byte < t.span.stop)
    (hvalues : ∀ u ∈ t.parts,
      Nested s.path parent u.span.start.byte u.span.stop (visit s parent u).declarations) :
    Nested s.path parent t.span.start.byte t.span.stop
      ((fieldOf s parent whole parts t.span t.parts).declarations ++
        (visitValues s parent t.parts).declarations) := by
  rw [declarations_visitValues, fieldOf]
  split
  · next name hname =>
    obtain ⟨hmem, hrole⟩ := mem_of_inRole? hname
    exact Nested.cons_beside_select ⟨rfl, rfl⟩ ht hspan rfl hmem (by rw [hrole]; rfl)
      fun u hu _ => hvalues u hu
  · exact Nested.select ht.placedIn_parts fun u hu _ => hvalues u hu

theorem nested_visitAll {forest : List Node} (hforest : PlacedIn lo hi forest)
    (hvisit : ∀ t ∈ forest,
      Nested s.path parent t.span.start.byte t.span.stop (visit s parent t).declarations) :
    Nested s.path parent lo hi (visitAll s parent forest).declarations := by
  rw [declarations_visitAll]
  exact .flatMap hforest hvisit

/-- A declaration on a node with a name, and then what stands in its bodies. -/
theorem nested_bodies {d : Declaration} {t name : Node} (hd : d.WrittenOn s.path t.span)
    (ht : t.Placed) (hspan : t.span.start.byte < t.span.stop) (hparent : d.parent = parent)
    (hname : inRole? t.parts .name = some name)
    (hbodies : ∀ u ∈ t.parts, Nested s.path (some d.id) u.span.start.byte u.span.stop
      (visitAll s (some d.id) u.parts).declarations) :
    Nested s.path parent t.span.start.byte t.span.stop
      (d :: (visitBodies s (some d.id) t.parts).declarations) := by
  obtain ⟨hmem, hrole⟩ := mem_of_inRole? hname
  rw [declarations_visitBodies]
  exact .cons_select hd ht hspan hparent hmem (by rw [hrole]; rfl) fun u hu _ => hbodies u hu

/-- **What a node declares nests**, and so does what each of its parts declares. -/
theorem nested_visit {t : Node} (ht : t.Placed) (hspan : t.span.start.byte < t.span.stop)
    (parent : Option DeclarationId) :
    Nested s.path parent t.span.start.byte t.span.stop (visit s parent t).declarations ∧
      ∀ u ∈ t.parts,
        Nested s.path parent u.span.start.byte u.span.stop (visit s parent u).declarations := by
  induction ht generalizing parent with
  | @node kind role span parts hspans hplaced ih =>
    have ht : Tree.Placed (.node kind role span parts) := .node hspans hplaced
    have hparts : PlacedIn span.start.byte span.stop parts := ⟨hspans, hplaced⟩
    have hvisit : ∀ parent, ∀ u ∈ parts,
        Nested s.path parent u.span.start.byte u.span.stop (visit s parent u).declarations :=
      fun parent u hu => (ih u hu (hparts.mem hu).2.1 parent).1
    -- bodies and declarators are visited two levels down
    have hinner : ∀ parent, ∀ u ∈ parts, ∀ v ∈ u.parts,
        Nested s.path parent v.span.start.byte v.span.stop (visit s parent v).declarations :=
      fun parent u hu => (ih u hu (hparts.mem hu).2.1 parent).2
    have hbodies : ∀ parent, ∀ u ∈ parts, Nested s.path parent u.span.start.byte u.span.stop
        (visitAll s parent u.parts).declarations :=
      fun parent u hu => nested_visitAll (hplaced u hu).placedIn_parts (hinner parent u hu)
    have hall := nested_visitAll hparts (hvisit parent)
    refine ⟨?_, hvisit parent⟩
    cases kind with
    | packageClause => exact .nil
    | importClause =>
      rw [visit, declarations_importOf]
      exact .nil
    | typeDeclaration type =>
      rw [visit]
      split
      · next name hname => exact nested_bodies ⟨rfl, rfl⟩ ht hspan rfl hname (hbodies _)
      · exact hall
    | method =>
      rw [visit]
      split
      · next name hname => exact nested_bodies ⟨rfl, rfl⟩ ht hspan rfl hname (hbodies _)
      · exact hall
    | field =>
      rw [visit, declarations_visitDeclarators]
      exact .select hparts fun u hu _ =>
        nested_declarator (hplaced u hu) (hparts.mem hu).2.1 (hinner parent u hu)
    | invocation =>
      rw [visit, declarations_append, declarations_invocationOf]
      exact hall
    | creation =>
      rw [visit, declarations_append, declarations_creationOf]
      exact hall
    | _ => exact hall

/-- **The declarations of a Java file nest.** -/
theorem nested_outline (path : Path) (text : String) :
    ∃ hi, Nested path none 0 hi (outline path text).declarations := by
  obtain ⟨hi, htree⟩ := placed_tree text
  have hvisit := fun t (ht : t ∈ tree text) =>
    (nested_visit (s := { path, text }) (htree.placed t ht) (htree.mem ht).2.1 none).1
  exact ⟨hi, nested_visitAll htree hvisit⟩

/-- The declarations of a Java file are those of the visible nodes of its tree. -/
theorem declarations_outline (path : Path) (text : String) :
    (outline path text).declarations =
      (Tree.visibleIn passesOver (tree text)).flatMap fun o =>
        (own { path, text } o).declarations := by
  have htree : Tree.EveryIn (promise fun _ => True).Met (tree text) :=
    everyIn_tree fun t _ => ⟨trivial, fun _ _ => trivial⟩
  rw [← Tree.flatMap_gather]
  exact yield_visitForest Harvest.declared htree

end Java

end AdLint
