import AdLint.Proofs.JavaNesting
import AdLint.Proofs.JavaShape
import AdLint.Proofs.Marks

/-!
# Where the declarations of a Java file are shown

A type is shown at the annotations among its modifiers, and these are no body of it. A field shares
its range with the other fields of its declaration, and is shown at its name, which starts where a
token does. What stands in the value of a field is declared behind the name.

## Main results

* `Java.marked_visit`: what a node declares is marked apart
* `Java.marked_outline`: the declarations of every text are marked apart
-/

namespace AdLint

open AdLint.Tree (EveryIn PlacedIn)

namespace Java

variable {s : Source}

theorem within_annot {t u : Node} (ht : t.Placed) (hu : u ∈ t.parts) :
    (annot s u).Within s.path t := by
  have hplaced := ht.placedIn_parts.placed u hu
  refine ⟨Location.within_locate ht hu, fun argument hargument => ?_⟩
  rw [annot, annotOf] at hargument
  split at hargument
  · next list value hlist =>
    have hmem : list ∈ u.parts := Tree.mem_of_mem_foldParts (List.mem_of_find?_eq_some hlist)
    obtain ⟨node, hnode, expr, -, rfl⟩ := exists_of_mem_zipWith hargument
    have hlocate :
        (s.locate node.span node.span).Within s.path list.span.start.byte list.span.stop :=
      Location.within_locate (hplaced.placedIn_parts.placed list hmem)
        (List.mem_of_mem_filter hnode)
    exact (hlocate.of_part hplaced hmem).of_part ht hu
  · cases hargument

/-- The annotations before a declaration stand in its modifiers. -/
theorem within_annotsOf {lo hi : Nat} {parts : List Node} {a : Annot}
    (hparts : PlacedIn lo hi parts)
    (ha : a ∈ annotsOf s parts) : ∃ v ∈ parts, v.kind = .modifiers ∧ a.Within s.path v := by
  rw [annotsOf] at ha
  split at ha
  · next list hlist =>
    have hmem := List.mem_of_find?_eq_some hlist
    have hkind := List.find?_some hlist
    obtain ⟨u, hu, rfl⟩ := List.mem_map.mp ha
    exact ⟨list, hmem, beq_iff_eq.mp hkind,
      within_annot (hparts.placed list hmem) (List.mem_of_mem_filter hu)⟩
  · cases ha

/-! ## Java files -/

variable {parent : Option DeclarationId}

/-- The nodes of a text start where its tokens and comments do. -/
theorem everyIn_starts (text : String) :
    EveryIn (promise fun place => place ∈ lexicon.starts text).Met (tree text) := by
  refine everyIn_tree fun t ht => ⟨?_, fun span hspan => ?_⟩
  · exact List.mem_flatMap.mpr ⟨t, ht, List.mem_append_right _ List.mem_cons_self⟩
  · exact List.mem_flatMap.mpr ⟨t, ht, List.mem_append_left _ (List.mem_map_of_mem hspan)⟩

section Marked

variable {starts : List Place} (hshown : ∀ p ∈ starts, ∀ q ∈ starts, p.shown = q.shown → p = q)

include hshown

/-- A declaration that is shown at its name marks the name, unless it is a type. -/
theorem within_name {d : Declaration} {whole : Span} {name : Node} {m : Location}
    (hlocation : d.location = s.locate whole name.span) (htype : d.isType = false)
    (hstart : name.span.start ∈ starts) (hspan : name.span.start.byte < name.span.stop)
    (hm : d.Marks starts m) : m.Within s.path name.span.start.byte name.span.stop := by
  cases hm with
  | head h => exact absurd (htype.symm.trans h.isType) Bool.false_ne_true
  | name _ hplace hline hcolumn =>
    rw [hlocation] at hline hcolumn ⊢
    obtain rfl := hshown _ hplace _ hstart (by rw [Place.shown, hline, hcolumn]; rfl)
    exact ⟨rfl, le_rfl, Nat.lt_succ_self _, hspan⟩

/-- A type or a method on a node with a name, and then what stands in its bodies. -/
theorem marked_bodies {d : Declaration} {t name : Node}
    (hid : d.id = s.identify t.span) (hlocation : d.location = s.locate t.span name.span)
    (hannotations : d.annotations = annotsOf s t.parts) (ht : t.Placed)
    (hnodes : t.Every (promise fun place => place ∈ starts).Met)
    (hname : inRole? t.parts .name = some name)
    (hbodies : ∀ u ∈ t.parts, Marked .java starts s.path u.span.start.byte u.span.stop
      (visitAll s (some d.id) u.parts).declarations) :
    Marked .java starts s.path t.span.start.byte t.span.stop
      (d :: (visitBodies s (some d.id) t.parts).declarations) := by
  obtain ⟨hmem, hrole⟩ := mem_of_inRole? hname
  rw [declarations_visitBodies]
  have hstart := (hnodes.inside name hmem).here.start
  refine .cons_select ⟨fun _ => ?_, fun _ _ => ⟨_, hstart, ?_⟩⟩ ht (fun m hm => ?_)
    fun u hu _ => hbodies u hu
  · rw [hid, hlocation]
    exact ⟨rfl, rfl⟩
  · rw [hlocation]
    exact ⟨rfl, rfl⟩
  · cases htype : d.isType with
    | false =>
      exact ⟨name, hmem, by rw [hrole]; rfl,
        within_name hshown hlocation htype hstart (ht.placedIn_parts.mem hmem).2.1 hm⟩
    | true =>
      cases hm with
      | head h =>
        obtain ⟨v, hv, hkind, hwithin⟩ :=
          h.within fun a ha => within_annotsOf ht.placedIn_parts (hannotations ▸ ha)
        refine ⟨v, hv, beq_eq_false_iff_ne.mpr fun hbody => ?_, hwithin⟩
        -- bodies are phrases in braces, and modifiers are none
        have hother := (hnodes.inside v hv).here.reserved .other (by rw [hbody])
        rw [hkind] at hother
        cases hother
      | name hkind => exact absurd hkind (Declaration.kind_ne_field htype)

/-- What a declarator makes: its field, and then what stands in its value. -/
theorem marked_declarator {whole : Span} {parts : List Node} {t : Node} (ht : t.Placed)
    (hnodes : t.Every (promise fun place => place ∈ starts).Met)
    (hvalues : ∀ u ∈ t.parts,
      Marked .java starts s.path u.span.start.byte u.span.stop (visit s parent u).declarations) :
    Marked .java starts s.path t.span.start.byte t.span.stop
      ((fieldOf s parent whole parts t.span t.parts).declarations ++
        (visitValues s parent t.parts).declarations) := by
  rw [declarations_visitValues, fieldOf]
  split
  · next name hname =>
    obtain ⟨hmem, hrole⟩ := mem_of_inRole? hname
    have hstart := (hnodes.inside name hmem).here.start
    refine Marked.cons_select ⟨fun h => (h.elim (· rfl) (· rfl)).elim,
      fun _ _ => ⟨_, hstart, rfl, rfl⟩⟩
      ht (fun m hm => ?_) fun u hu _ => hvalues u hu
    exact ⟨name, hmem, by rw [hrole]; rfl,
      within_name hshown rfl rfl hstart (ht.placedIn_parts.mem hmem).2.1 hm⟩
  · exact Marked.select ht.placedIn_parts fun u hu _ => hvalues u hu

omit hshown in
theorem marked_visitAll {lo hi : Nat} {forest : List Node} (hforest : PlacedIn lo hi forest)
    (hvisit : ∀ t ∈ forest,
      Marked .java starts s.path t.span.start.byte t.span.stop (visit s parent t).declarations) :
    Marked .java starts s.path lo hi (visitAll s parent forest).declarations := by
  rw [declarations_visitAll]
  exact .flatMap hforest hvisit

/-- **What a node declares is marked apart**, and so is what each of its parts declares. -/
theorem marked_visit {t : Node} (ht : t.Placed)
    (hnodes : t.Every (promise fun place => place ∈ starts).Met) (parent : Option DeclarationId) :
    Marked .java starts s.path t.span.start.byte t.span.stop (visit s parent t).declarations ∧
      ∀ u ∈ t.parts,
        Marked .java starts s.path u.span.start.byte u.span.stop
          (visit s parent u).declarations := by
  induction ht generalizing parent with
  | @node kind role span parts hspans hplaced ih =>
    have ht : Tree.Placed (.node kind role span parts) := .node hspans hplaced
    have hparts : PlacedIn span.start.byte span.stop parts := ⟨hspans, hplaced⟩
    have hvisit : ∀ parent, ∀ u ∈ parts,
        Marked .java starts s.path u.span.start.byte u.span.stop (visit s parent u).declarations :=
      fun parent u hu => (ih u hu (hnodes.inside u hu) parent).1
    -- bodies and declarators are visited two levels down
    have hinner : ∀ parent, ∀ u ∈ parts, ∀ v ∈ u.parts,
        Marked .java starts s.path v.span.start.byte v.span.stop (visit s parent v).declarations :=
      fun parent u hu => (ih u hu (hnodes.inside u hu) parent).2
    have hbodies : ∀ parent, ∀ u ∈ parts, Marked .java starts s.path u.span.start.byte u.span.stop
        (visitAll s parent u.parts).declarations :=
      fun parent u hu => marked_visitAll (hplaced u hu).placedIn_parts (hinner parent u hu)
    have hall := marked_visitAll hparts (hvisit parent)
    refine ⟨?_, hvisit parent⟩
    cases kind with
    | packageClause => exact .nil
    | importClause =>
      rw [visit, declarations_importOf]
      exact .nil
    | typeDeclaration type =>
      rw [visit]
      split
      · next name hname => exact marked_bodies hshown rfl rfl rfl ht hnodes hname (hbodies _)
      · exact hall
    | method =>
      rw [visit]
      split
      · next name hname => exact marked_bodies hshown rfl rfl rfl ht hnodes hname (hbodies _)
      · exact hall
    | field =>
      rw [visit, declarations_visitDeclarators]
      exact .select hparts fun u hu _ =>
        marked_declarator hshown (hplaced u hu) (hnodes.inside u hu) (hinner parent u hu)
    | invocation =>
      rw [visit, Harvest.declarations_append, declarations_invocationOf]
      exact hall
    | creation =>
      rw [visit, Harvest.declarations_append, declarations_creationOf]
      exact hall
    | _ => exact hall

end Marked

/-- **The declarations of a Java file are marked apart.** -/
theorem marked_outline (path : Path) (text : String) :
    ∃ hi, Marked .java (lexicon.starts text) path 0 hi (outline path text).declarations := by
  obtain ⟨hi, htree⟩ := placed_tree text
  have hshown : ∀ p ∈ lexicon.starts text, ∀ q ∈ lexicon.starts text, p.shown = q.shown → p = q :=
    fun p hp q hq => Lexicon.eq_of_shown_eq takes_next hp hq
  have hvisit := fun t (ht : t ∈ tree text) =>
    (marked_visit (s := { path, text }) hshown (htree.placed t ht)
      (everyIn_starts text t ht) none).1
  exact ⟨hi, marked_visitAll htree hvisit⟩

end Java

end AdLint
