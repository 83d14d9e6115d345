import AdLint.Proofs.KotlinNesting
import AdLint.Proofs.Marks

/-!
# Where the declarations of a Kotlin file are shown

A type is shown at the annotations among its modifiers, and these are no body of it. Every
declaration has a range of its own, so that no field needs to be told from others by its name.

## Main results

* `Kotlin.marked_visit`: what a node declares is marked apart
* `Kotlin.marked_outline`: the declarations of every text are marked apart
-/

namespace AdLint

open AdLint.Tree (PlacedIn)

namespace Kotlin

variable {s : Source}

theorem within_argumentsIn {t : Node} {reading : Reading} {argument : Argument} (ht : t.Placed)
    (h : argument ∈ argumentsIn s t reading) :
    argument.location.Within s.path t.span.start.byte t.span.stop := by
  rw [argumentsIn] at h
  split at h
  · next list hlist =>
    obtain ⟨hmem, -⟩ := mem_of_ofKind? hlist
    obtain ⟨node, hnode, expr, -, rfl⟩ := exists_of_mem_zipWith h
    have hlocate :
        (s.locate node.span node.span).Within s.path list.span.start.byte list.span.stop :=
      Location.within_locate (ht.placedIn_parts.placed list hmem) (List.mem_of_mem_filter hnode)
    exact hlocate.of_part ht hmem
  · cases h

theorem within_annot? {t u : Node} {a : Annot} (ht : t.Placed) (hu : u ∈ t.parts)
    (ha : annot? s u = some a) : a.Within s.path t := by
  have hplaced := ht.placedIn_parts.placed u hu
  rw [annot?, annotOf?] at ha
  split at ha
  · next call reading hcall =>
    have hmem : call ∈ u.parts := Tree.mem_of_mem_foldParts (List.mem_of_find?_eq_some hcall)
    obtain ⟨type, -, ha⟩ := Option.bind_eq_some_iff.mp ha
    cases ha
    refine ⟨Location.within_locate ht hu, fun argument hargument => ?_⟩
    have hcall := within_argumentsIn (hplaced.placedIn_parts.placed call hmem) hargument
    exact (hcall.of_part hplaced hmem).of_part ht hu
  · obtain ⟨type, -, ha⟩ := Option.bind_eq_some_iff.mp ha
    cases ha
    exact ⟨Location.within_locate ht hu, by simp⟩

/-- The annotations before a declaration stand in its modifiers. -/
theorem within_annotsOf {lo hi : Nat} {parts : List Node} {a : Annot}
    (hparts : PlacedIn lo hi parts)
    (ha : a ∈ annotsOf s parts) : ∃ v ∈ parts, v.kind = .modifiers ∧ a.Within s.path v := by
  rw [annotsOf] at ha
  split at ha
  · next list hlist =>
    obtain ⟨hmem, hkind⟩ := mem_of_ofKind? hlist
    obtain ⟨u, hu, ha⟩ := List.mem_filterMap.mp ha
    exact ⟨list, hmem, hkind,
      within_annot? (hparts.placed list hmem) (List.mem_of_mem_filter hu) ha⟩
  · cases ha

/-! ## Kotlin files -/

variable {context : Context}

theorem marked_visitAll {lo hi : Nat} {forest : List Node} (hforest : PlacedIn lo hi forest)
    (hvisit : ∀ t ∈ forest,
      Marked .kotlin [] s.path t.span.start.byte t.span.stop (visit s context t).declarations) :
    Marked .kotlin [] s.path lo hi (visitAll s context forest).declarations := by
  rw [declarations_visitAll]
  exact .flatMap hforest hvisit

/-- Only types mark anything. -/
theorem not_marks {d : Declaration} {m : Location} (htype : d.isType = false) : ¬d.Marks [] m := by
  intro hm
  cases hm with
  | head h => exact absurd (htype.symm.trans h.isType) Bool.false_ne_true
  | name _ hplace => cases hplace

theorem located_of_range {d : Declaration}
    (h : d.location.start = d.id.start ∧ d.location.stop = d.id.stop) : d.Located .kotlin [] where
  range _ := h
  name _ hjava := by cases hjava

theorem unmarked_of_parameterProperty? {owner : DeclarationId} {t : Node} {d : Declaration}
    (h : parameterProperty? s owner t = some d) : d.Located .kotlin [] ∧ ∀ m, ¬d.Marks [] m := by
  rw [parameterProperty?] at h
  split at h
  · obtain ⟨name, -, h⟩ := Option.bind_eq_some_iff.mp h
    cases h
    exact ⟨located_of_range ⟨rfl, rfl⟩, fun _ => not_marks rfl⟩
  · cases h

theorem unmarked_of_fieldOf? {parent : Option DeclarationId} {span : Span} {parts : List Node}
    {d : Declaration} (h : fieldOf? s parent span parts = some d) :
    d.Located .kotlin [] ∧ ∀ m, ¬d.Marks [] m := by
  obtain ⟨declared, -, h⟩ := Option.bind_eq_some_iff.mp h
  obtain ⟨name, -, h⟩ := Option.bind_eq_some_iff.mp h
  cases h
  exact ⟨located_of_range ⟨rfl, rfl⟩, fun _ => not_marks rfl⟩

/-- A type, then the properties of its constructor, then what stands in its body. -/
theorem marked_type {parent : Option DeclarationId} {t : Node} {d : Declaration}
    (hd : typeOf? s parent t.kind t.span t.parts = some d) (ht : t.Placed)
    (hbodies : ∀ u ∈ t.parts, Marked .kotlin [] s.path u.span.start.byte u.span.stop
      (visitAll s { parent := some d.id } u.parts).declarations) :
    Marked .kotlin [] s.path t.span.start.byte t.span.stop
      (d :: (parameterProperties s d.id t.parts ++
        (visitParts s { parent := some d.id } .classBody t.parts).declarations)) := by
  have hmarks : ∀ m, d.Marks [] m → ∃ v ∈ t.parts, (v.kind == .classBody) = false ∧
      m.Within s.path v.span.start.byte v.span.stop := by
    intro m hm
    obtain ⟨⟨name, anchor⟩, -, rfl⟩ := Option.map_eq_some_iff.mp hd
    cases hm with
    | head h =>
      obtain ⟨v, hv, hkind, hwithin⟩ := h.within fun a ha => within_annotsOf ht.placedIn_parts ha
      exact ⟨v, hv, by rw [hkind]; rfl, hwithin⟩
    | name _ hplace => cases hplace
  have hlocated : d.Located .kotlin [] := by
    obtain ⟨⟨name, anchor⟩, -, rfl⟩ := Option.map_eq_some_iff.mp hd
    exact located_of_range ⟨rfl, rfl⟩
  have hproperties : ∀ e ∈ parameterProperties s d.id t.parts,
      e.Located .kotlin [] ∧ ∀ m, ¬e.Marks [] m := by
    intro e he
    rw [parameterProperties] at he
    split at he
    · obtain ⟨u, -, hu⟩ := List.mem_filterMap.mp (List.mem_reverse.mp he)
      exact unmarked_of_parameterProperty? hu
    · cases he
  rw [declarations_visitParts]
  have hrest : Marked .kotlin [] s.path t.span.start.byte t.span.stop
      ([d] ++ t.parts.flatMap fun u => if u.kind == .classBody then
        (visitAll s { parent := some d.id } u.parts).declarations else []) :=
    .cons_select hlocated ht hmarks fun u hu _ => hbodies u hu
  exact hrest.insert_unmarked (fun e he => (hproperties e he).1) fun e he => (hproperties e he).2

/-- A property and then what stands in its value or its delegate. -/
theorem marked_property {t : Node} {d : Declaration}
    (hd : fieldOf? s context.parent t.span t.parts = some d) (ht : t.Placed)
    (hvisit : ∀ u ∈ t.parts,
      Marked .kotlin [] s.path u.span.start.byte u.span.stop (visit s context u).declarations)
    (hdelegates : ∀ u ∈ t.parts, Marked .kotlin [] s.path u.span.start.byte u.span.stop
      (visitAll s context u.parts).declarations) :
    Marked .kotlin [] s.path t.span.start.byte t.span.stop
      (d :: (if (valueOf? s t.parts).isSome then visitValue s context false t.parts
        else visitParts s context .delegate t.parts).declarations) := by
  obtain ⟨hlocated, hnone⟩ := unmarked_of_fieldOf? hd
  refine .cons_of_unmarked hlocated hnone ?_
  split
  · next hvalue =>
    obtain ⟨u, hu⟩ := Option.isSome_iff_exists.mp hvalue
    obtain ⟨hmem, -⟩ := mem_of_valueOf? hu
    obtain ⟨hlo, -, hhi⟩ := ht.placedIn_parts.mem hmem
    rw [visitValue_false, hu]
    exact (hvisit u hmem).mono hlo hhi
  · rw [declarations_visitParts]
    exact .select ht.placedIn_parts fun u hu _ => hdelegates u hu

/-- **What a node declares is marked apart**, and so is what each of its parts declares. -/
theorem marked_visit {t : Node} (ht : t.Placed) (context : Context) :
    Marked .kotlin [] s.path t.span.start.byte t.span.stop (visit s context t).declarations ∧
      ∀ u ∈ t.parts,
        Marked .kotlin [] s.path u.span.start.byte u.span.stop
          (visit s context u).declarations := by
  induction ht generalizing context with
  | @node kind role span parts hspans hplaced ih =>
    have ht : Tree.Placed (.node kind role span parts) := .node hspans hplaced
    have hparts : PlacedIn span.start.byte span.stop parts := ⟨hspans, hplaced⟩
    have hvisit : ∀ context, ∀ u ∈ parts,
        Marked .kotlin [] s.path u.span.start.byte u.span.stop (visit s context u).declarations :=
      fun context u hu => (ih u hu context).1
    -- bodies and delegates are visited two levels down
    have hbodies : ∀ context, ∀ u ∈ parts, Marked .kotlin [] s.path u.span.start.byte u.span.stop
        (visitAll s context u.parts).declarations :=
      fun context u hu => marked_visitAll (hplaced u hu).placedIn_parts (ih u hu context).2
    have hall := marked_visitAll hparts (hvisit context)
    refine ⟨?_, hvisit context⟩
    cases kind with
    | packageClause => exact .nil
    | importClause =>
      rw [visit, declarations_importOf]
      exact .nil
    | classDeclaration | objectDeclaration | companion =>
      rw [visit]
      split
      · next d hd => exact marked_type hd ht (hbodies { parent := some d.id })
      · exact hall
    | property =>
      rw [visit]
      split
      · next d hd =>
        split at hd
        · cases hd
        · exact marked_property hd ht (hvisit context) (hbodies context)
      · exact hall
    | function =>
      rw [visit]
      split
      · next name hname =>
        refine .cons_of_unmarked (located_of_range ⟨rfl, rfl⟩) (fun m => not_marks rfl) ?_
        rw [declarations_visitParts]
        exact .select hparts fun u hu _ =>
          hbodies { parent := some (s.identify span), inFunction := true } u hu
      · exact hall
    | call =>
      rw [visit, Harvest.declarations_append]
      exact hall
    | _ => exact hall

/-- **The declarations of a Kotlin file are marked apart.** -/
theorem marked_outline (path : Path) (text : String) :
    ∃ hi, Marked .kotlin [] path 0 hi (outline path text).declarations := by
  obtain ⟨hi, htree⟩ := placed_tree text
  have hvisit := fun t (ht : t ∈ tree text) =>
    (marked_visit (s := { path, text }) (htree.placed t ht) {}).1
  exact ⟨hi, marked_visitAll htree hvisit⟩

end Kotlin

end AdLint
