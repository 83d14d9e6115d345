import AdLint.Proofs.Components
import AdLint.Proofs.JavaCalls
import AdLint.Proofs.JavaMarks
import AdLint.Proofs.KotlinCalls
import AdLint.Proofs.KotlinMarks
import AdLint.Proofs.Lineage

/-!
# Projects put together from outlines

A project is put together from the outlines of its sources. All that an outline contributes is
located in its own file, and no two things of one kind at one place. If the paths of the sources are
different, then this goes for the whole project: what stands in different files is told apart by the
files. In particular no declaration takes the place of another one, so that every question is
answered by the record itself.

## Main definitions

* `Outline.WellPlaced`: what an outline contributes is located in its file, at different places
* `outlines`, `Project.ofOutlines`: the outlines of sources, and the project that outlines make up
* `Project.Distinct`: no two declarations of the record are one

## Main results

* `wellPlaced_outlineOf`: outlines are well placed
* `Project.ofSources_eq_ofOutlines`: sources make up the project of their outlines
* `Project.pairwise_flatMap_of_file`: what stands in different files is told apart
* `Project.mem_declarations_of_file`: the declarations in a file are those of its outline
* `Project.Distinct.declarations_eq`, `Project.Distinct.children_eq`: answers of the record itself
-/

namespace AdLint

/-! ## Outlines -/

/-- What an outline contributes is located in its file, and no two things of one kind at one
place. -/
structure Outline.WellPlaced (o : Outline) : Prop where
  nested : ∃ hi, Nested o.file.path none 0 hi o.declarations
  toldApart : o.declarations.Pairwise Declaration.ToldApart
  file_of_annotatedAt : ∀ d ∈ o.declarations, ∀ m, d.AnnotatedAt m → m.file = o.file.path
  file_of_call : ∀ c ∈ o.calls, c.location.file = o.file.path
  callsApart : o.calls.Pairwise fun a b => a.location.same b.location = false
  file_of_component : ∀ c ∈ o.components, c.location.file = o.file.path
  componentsApart : o.components.Pairwise fun a b => a.location.same b.location = false

theorem Outline.WellPlaced.file_of_declaration {o : Outline} (h : o.WellPlaced) :
    ∀ d ∈ o.declarations, d.location.file = o.file.path := by
  intro d hd
  obtain ⟨hi, hnested⟩ := h.nested
  exact (hnested.within d hd).2.1

/-- Locations with different ranges are different. -/
theorem Location.pairwise_of_nodup {α : Type} {xs : List α} {location : α → Location}
    (h : (xs.map fun x => ((location x).start, (location x).stop)).Nodup) :
    xs.Pairwise fun a b => (location a).same (location b) = false := by
  refine (List.pairwise_map.mp h).imp fun {a b} hne => Bool.eq_false_iff.mpr fun hsame => hne ?_
  obtain ⟨-, -, -, hstart, hstop⟩ := same_iff.mp hsame
  rw [hstart, hstop]

theorem Java.wellPlaced_outline (path : Path) (text : String) : (outline path text).WellPlaced := by
  obtain ⟨hi, hmarked⟩ := marked_outline path text
  obtain ⟨hi', hnested⟩ := nested_outline path text
  exact {
    nested := ⟨hi', hnested⟩
    toldApart := hmarked.pairwise_toldApart hnested fun p hp q hq =>
      Lexicon.eq_of_shown_eq takes_next hp hq
    file_of_annotatedAt := fun d hd m hm => (hmarked.within d hd m (.head hm)).file_eq
    file_of_call := fun _ => file_of_mem_calls
    callsApart := Location.pairwise_of_nodup (nodup_call_ranges path text)
    file_of_component := by simp [outline, Harvest.toOutline]
    componentsApart := .nil }

theorem Kotlin.wellPlaced_outline (path : Path) (text : String) :
    (outline path text).WellPlaced := by
  obtain ⟨hi, hmarked⟩ := marked_outline path text
  obtain ⟨hi', hnested⟩ := nested_outline path text
  exact {
    nested := ⟨hi', hnested⟩
    toldApart := hmarked.pairwise_toldApart hnested (by simp)
    file_of_annotatedAt := fun d hd m hm => (hmarked.within d hd m (.head hm)).file_eq
    file_of_call := fun _ => file_of_mem_calls
    callsApart := Location.pairwise_of_nodup (nodup_call_ranges path text)
    file_of_component := by simp [outline, Harvest.toOutline]
    componentsApart := .nil }

theorem Manifest.wellPlaced_outline {path : Path} {text : String} {o : Outline}
    (h : outline path text = .ok o) : o.WellPlaced := by
  obtain ⟨hdeclarations, hpath⟩ := outline_eq_ok h
  obtain ⟨hstops, hfile, hcalls⟩ := pairwise_components h
  exact {
    nested := ⟨0, by rw [hdeclarations]; exact .nil⟩
    toldApart := by rw [hdeclarations]; exact .nil
    file_of_annotatedAt := by simp [hdeclarations]
    file_of_call := by simp [hcalls]
    callsApart := by rw [hcalls]; exact .nil
    file_of_component := fun c hc => (hfile c hc).trans hpath.symm
    componentsApart := hstops.imp fun hlt => Bool.eq_false_iff.mpr fun hsame =>
      hlt.ne (Location.same_iff.mp hsame).2.2.2.2 }

/-- **Outlines are well placed.** -/
theorem wellPlaced_outlineOf {path : Path} {text : String} {o : Outline}
    (h : outlineOf path text = .ok o) : o.WellPlaced := by
  obtain ⟨kind, h⟩ := exists_outline_of_outlineOf h
  cases kind with
  | kotlin =>
    cases h
    exact Kotlin.wellPlaced_outline path text
  | java =>
    cases h
    exact Java.wellPlaced_outline path text
  | manifest => exact Manifest.wellPlaced_outline h

/-- What is located in different files is told apart. -/
theorem Location.same_of_file {m n : Location} (h : m.file.same n.file = false) :
    m.same n = false := by
  rw [same, h]
  rfl

/-! ## The outlines of sources -/

/-- The outlines of the sources that have one, in order. -/
def outlines (sources : List (Path × String)) : List Outline :=
  sources.filterMap fun source => (outlineOf source.1 source.2).toOption

theorem outlines_cons (source : Path × String) (sources : List (Path × String)) :
    outlines (source :: sources) =
      (outlineOf source.1 source.2).toOption.toList ++ outlines sources := by
  rw [outlines, List.filterMap_cons]
  cases (outlineOf source.1 source.2).toOption <;> rfl

theorem outlineOf_eq_ok {path : Path} {text : String} {o : Outline}
    (h : (outlineOf path text).toOption = some o) : outlineOf path text = .ok o := by
  cases houtline : outlineOf path text with
  | error reason =>
    rw [houtline] at h
    cases h
  | ok o' =>
    rw [houtline] at h
    cases h
    rfl

theorem mem_outlines {sources : List (Path × String)} {path : Path} {text : String} {o : Outline}
    (hsource : (path, text) ∈ sources) (houtline : outlineOf path text = .ok o) :
    o ∈ outlines sources :=
  List.mem_filterMap.mpr ⟨(path, text), hsource, by rw [houtline]; rfl⟩

theorem wellPlaced_of_mem_outlines {sources : List (Path × String)} {o : Outline}
    (h : o ∈ outlines sources) : o.WellPlaced := by
  obtain ⟨source, -, ho⟩ := List.mem_filterMap.mp h
  exact wellPlaced_outlineOf (outlineOf_eq_ok ho)

/-- Sources with different paths have outlines of different files. -/
theorem pairwise_outlines {sources : List (Path × String)}
    (h : sources.Pairwise fun a b => a.1.same b.1 = false) :
    (outlines sources).Pairwise fun o o' => o.file.path.same o'.file.path = false := by
  refine List.pairwise_filterMap.mpr (h.imp fun {a b} hab o ho o' ho' => ?_)
  rw [path_outlineOf (outlineOf_eq_ok ho), path_outlineOf (outlineOf_eq_ok ho')]
  exact hab

namespace Project

/-- The project that some outlines make up. -/
def ofOutlines (os : List Outline) : Project where
  added := os.flatMap Outline.declarations
  calls := os.flatMap Outline.calls
  filesAdded := os.map Outline.file
  components := os.flatMap Outline.components

theorem ofOutlines_concat (os : List Outline) (o : Outline) :
    ofOutlines (os ++ [o]) = (ofOutlines os).merge o := by
  simp [ofOutlines, merge]

/-- **Sources make up the project of their outlines.** -/
theorem ofSources_eq_ofOutlines (sources : List (Path × String)) :
    (ofSources sources).1 = ofOutlines (outlines sources) := by
  -- by induction on the sources, with the outlines read before them left open
  have hrun : ∀ (state : Project × List (Path × SkipReason)) (os : List Outline),
      state.1 = ofOutlines os →
        (sources.foldl addSource state).1 = ofOutlines (os ++ outlines sources) := by
    induction sources with
    | nil =>
      intro state os h
      exact h.trans (by rw [outlines, List.filterMap_nil, List.append_nil])
    | cons source sources ih =>
      intro state os h
      rw [List.foldl_cons, outlines_cons]
      cases houtline : outlineOf source.1 source.2 with
      | ok o =>
        rw [ih _ (os ++ [o]) (by rw [addSource, houtline, ofOutlines_concat, h]), List.append_assoc]
        rfl
      | error reason => exact ih _ os (by rw [addSource, houtline]; exact h)
  exact hrun ({}, []) [] rfl

/-! ## Records without repetition -/

/-- No two declarations of the record are one. -/
def Distinct (p : Project) : Prop := p.added.Pairwise fun a b => a.id.same b.id = false

namespace Distinct

variable {p : Project} {d e : Declaration} {id : DeclarationId}

theorem nodup (hp : p.Distinct) : p.added.Nodup :=
  hp.imp fun {a b} hne heq => by rw [heq, DeclarationId.same_refl] at hne; cases hne

theorem eq_of_same (hp : p.Distinct) (hd : d ∈ p.added) (he : e ∈ p.added)
    (hsame : d.id.same e.id = true) : d = e := by
  have hsymm : Std.Symm fun a b : Declaration => a.id.same b.id = false :=
    ⟨fun a b hab => Bool.eq_false_iff.mpr fun hba =>
      Bool.eq_false_iff.mp hab (DeclarationId.same_symm hba)⟩
  by_contra hne
  exact Bool.eq_false_iff.mp (List.Pairwise.forall hp hd he hne) hsame

theorem find?_eq_some_iff (hp : p.Distinct) :
    p.find? id = some d ↔ d ∈ p.added ∧ d.id.same id = true := by
  refine ⟨fun h => ⟨mem_added_of_find? h, same_of_find? h⟩, fun ⟨hd, hsame⟩ => ?_⟩
  obtain ⟨e, he⟩ := exists_find? hd
  rw [find?_congr (DeclarationId.same_symm hsame), he,
    hp.eq_of_same (mem_added_of_find? he) hd (same_of_find? he)]

/-- Entries of the record stand for themselves. -/
theorem current_eq (hp : p.Distinct) {entries : List Declaration} (h : ∀ d ∈ entries, d ∈ p.added) :
    p.current entries = entries := by
  have hself : ∀ d ∈ entries, p.find? d.id = some d := fun d hd =>
    hp.find?_eq_some_iff.mpr ⟨h d hd, DeclarationId.same_refl d.id⟩
  rw [current, List.filterMap_congr hself, List.filterMap_some]

theorem current_filter (hp : p.Distinct) (pick : Declaration → Bool) :
    p.current (p.added.filter pick) = p.added.filter pick :=
  hp.current_eq fun _ hd => List.mem_of_mem_filter hd

theorem declarations_eq (hp : p.Distinct) : p.declarations = p.added := by
  rw [declarations, distinctBy_of_pairwise _ hp]
  exact hp.current_eq fun _ hd => hd

theorem children_eq (hp : p.Distinct) (id : DeclarationId) :
    p.children id = p.added.filter fun d => d.parent.any fun parent => parent.same id :=
  hp.current_filter _

/-- What stands in a declaration of the record has it for its parent. -/
theorem parentOf?_of_mem_children (hp : p.Distinct) (hd : d ∈ p.added) (he : e ∈ p.children d.id) :
    p.parentOf? e = some d := by
  rw [hp.children_eq] at he
  obtain ⟨parent, hparent, hsame⟩ := (Option.any_eq_true _ _).mp (List.mem_filter.mp he).2
  rw [parentOf?, hparent]
  exact hp.find?_eq_some_iff.mpr ⟨hd, DeclarationId.same_symm hsame⟩

end Distinct

/-! ## What stands in different files -/

section Files

variable {os : List Outline}

/-- What stands in different files is told apart, if different files tell it apart. -/
theorem pairwise_flatMap_of_file {α : Type} {f : Outline → List α} (file : α → Path)
    {R : α → α → Prop} (hpaths : os.Pairwise fun o o' => o.file.path.same o'.file.path = false)
    (hin : ∀ o ∈ os, (f o).Pairwise R) (hfile : ∀ o ∈ os, ∀ a ∈ f o, file a = o.file.path)
    (hR : ∀ o ∈ os, ∀ o' ∈ os, ∀ a ∈ f o, ∀ b ∈ f o', (file a).same (file b) = false → R a b) :
    (os.flatMap f).Pairwise R := by
  refine List.pairwise_flatMap.mpr ⟨hin, hpaths.imp_of_mem fun {o o'} ho ho' hne a ha b hb => ?_⟩
  refine hR o ho o' ho' a ha b hb ?_
  rw [hfile o ho a ha, hfile o' ho' b hb]
  exact hne

variable (hos : ∀ o ∈ os, o.WellPlaced)
  (hpaths : os.Pairwise fun o o' => o.file.path.same o'.file.path = false)

include hos hpaths

theorem pairwise_toldApart_ofOutlines : (ofOutlines os).added.Pairwise Declaration.ToldApart := by
  refine pairwise_flatMap_of_file (fun d => d.location.file) hpaths
    (fun o ho => (hos o ho).toldApart) (fun o ho => (hos o ho).file_of_declaration)
    fun o ho o' ho' d hd e he hfile => ?_
  refine ⟨fun _ _ => Location.same_of_file hfile, fun _ _ => Location.same_of_file hfile,
    fun m n hm hn => Location.same_of_file ?_⟩
  rw [(hos o ho).file_of_annotatedAt d hd m hm, (hos o' ho').file_of_annotatedAt e he n hn,
    ← (hos o ho).file_of_declaration d hd, ← (hos o' ho').file_of_declaration e he]
  exact hfile

theorem distinct_ofOutlines : (ofOutlines os).Distinct := by
  refine pairwise_flatMap_of_file (fun d => d.id.file) hpaths (fun o ho => ?_)
    (fun o ho d hd => ?_) fun _ _ _ _ d _ e _ hfile => Bool.eq_false_iff.mpr fun hsame => ?_
  · obtain ⟨hi, hnested⟩ := (hos o ho).nested
    exact hnested.parentsFirst.distinct
  · obtain ⟨hi, hnested⟩ := (hos o ho).nested
    exact (hnested.within d hd).1
  · -- one identifier names one file
    rw [Path.same_iff.mpr (DeclarationId.same_iff.mp hsame).1] at hfile
    cases hfile

omit hos in
/-- Outlines of different files are told apart by their paths. -/
theorem outline_eq_of_path {o o' : Outline} (ho : o ∈ os) (ho' : o' ∈ os)
    (hsame : o.file.path.same o'.file.path = true) : o = o' := by
  have hsymm : Std.Symm fun o o' : Outline => o.file.path.same o'.file.path = false :=
    ⟨fun a b hab => Bool.eq_false_iff.mpr fun hba =>
      Bool.eq_false_iff.mp hab (Path.same_iff.mpr (Path.same_iff.mp hba).symm)⟩
  by_contra hne
  exact Bool.eq_false_iff.mp (hpaths.forall ho ho' hne) hsame

omit hos in
/-- The file with the path of an outline is that of the outline. -/
theorem file?_ofOutlines {o : Outline} (ho : o ∈ os) :
    (ofOutlines os).file? o.file.path = some o.file := by
  have hmem : ∀ f, f ∈ (ofOutlines os).filesAdded.reverse ↔ ∃ o' ∈ os, o'.file = f := by
    simp [ofOutlines]
  have hfound : ((ofOutlines os).file? o.file.path).isSome :=
    List.find?_isSome.mpr ⟨o.file, (hmem _).mpr ⟨o, ho, rfl⟩, Path.same_refl _⟩
  obtain ⟨f, hf⟩ := Option.isSome_iff_exists.mp hfound
  obtain ⟨o', ho', rfl⟩ := (hmem f).mp (List.mem_of_find?_eq_some hf)
  have hsame := List.find?_some hf
  rw [hf, outline_eq_of_path hpaths ho' ho hsame]

/-- The declarations in a file are those of its outline. -/
theorem mem_declarations_of_file {o : Outline} {d : Declaration} (ho : o ∈ os)
    (hd : d ∈ (ofOutlines os).added) (hfile : d.location.file.same o.file.path = true) :
    d ∈ o.declarations := by
  obtain ⟨o', ho', hd⟩ := List.mem_flatMap.mp hd
  rw [(hos o' ho').file_of_declaration d hd] at hfile
  exact outline_eq_of_path hpaths ho' ho hfile ▸ hd

end Files

theorem distinct_ofSources {sources : List (Path × String)}
    (hpaths : sources.Pairwise fun a b => a.1.same b.1 = false) :
    (ofSources sources).1.Distinct := by
  rw [ofSources_eq_ofOutlines]
  exact distinct_ofOutlines (fun _ => wellPlaced_of_mem_outlines) (pairwise_outlines hpaths)

end Project

end AdLint
