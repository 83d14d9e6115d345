import AdLint.Proofs.Assembly
import AdLint.Proofs.Suppression

/-!
# The declarations around a location

The declarations around a location are sorted by the lengths of their ranges. That this puts the
outermost first and the innermost last is a property of syntax trees: of two nodes one lies in the
other, or they share no byte. A declaration is located on the range of a node, though not always on
the range of the node that identifies it: the fields that one declaration makes are identified by
their declarators and all located on the whole of it. So of two declarations around one byte one
contains the other, and the shorter is the inner one.

## Main definitions

* `Span.Nest`: of two spans one covers the other, or they are apart
* `Location.Nest`: the same of the ranges of two locations
* `Outline.Laminar`, `Project.Laminar`: the declarations of a file are located on ranges that nest

## Main results

* `Tree.nest_of_mem_occurrencesIn`: the nodes of a placed forest nest
* `Java.onNode_of_mem_declarations`, `Kotlin.onNode_of_mem_declarations`: a declaration is located
  on the range of a node
* `Project.laminar_ofSources`: the declarations of each file are located on ranges that nest
* `Project.Laminar.pairwise_enclosing`: each declaration around a location contains the later ones
* `Project.enclosing_forms_chain`: the declarations and the innermost type around a location
-/

namespace AdLint

/-! ## Nodes nest -/

/-- A span covers another one. -/
def Span.Covers (s t : Span) : Prop := s.start.byte ≤ t.start.byte ∧ t.stop ≤ s.stop

/-- Of two spans one covers the other, or they are apart. -/
def Span.Nest (s t : Span) : Prop := s.Apart t ∨ s.Covers t ∨ t.Covers s

namespace Tree

variable {κ : Type} {lo hi : Nat} {around : List (Tree κ)} {t : Tree κ} {forest : List (Tree κ)}
  {a b : Occurrence κ}

theorem covers_of_mem_occurrences (ht : t.Placed) (hspan : t.span.start.byte < t.span.stop)
    (ha : a ∈ t.occurrences around) : t.span.Covers a.node.span := by
  obtain ⟨hstart, -, hstop⟩ := range_of_mem_occurrences ht hspan ha
  exact ⟨hstart, hstop⟩

/-- Nodes of different trees of a forest are apart, so all nodes nest if those of each tree do. -/
theorem nest_of_forest (h : PlacedIn lo hi forest)
    (hforest : ∀ t ∈ forest, a ∈ t.occurrences around → b ∈ t.occurrences around →
      a.node.span.Nest b.node.span)
    (ha : a ∈ occurrencesIn around forest) (hb : b ∈ occurrencesIn around forest) :
    a.node.span.Nest b.node.span := by
  obtain ⟨t, ht, ha⟩ := mem_occurrencesIn.mp ha
  obtain ⟨u, hu, hb⟩ := mem_occurrencesIn.mp hb
  by_cases htu : t = u
  · subst htu
    exact hforest t ht ha hb
  · obtain ⟨hastart, hastop⟩ := covers_of_mem_occurrences (h.placed t ht) (h.mem ht).2.1 ha
    obtain ⟨hbstart, hbstop⟩ := covers_of_mem_occurrences (h.placed u hu) (h.mem hu).2.1 hb
    refine .inl ((h.apart ht hu htu).imp ?_ ?_) <;> intro hapart <;> omega

theorem nest_of_mem_occurrences (ht : t.Placed) (hspan : t.span.start.byte < t.span.stop)
    (ha : a ∈ t.occurrences around) (hb : b ∈ t.occurrences around) :
    a.node.span.Nest b.node.span := by
  induction t using induct generalizing around with
  | node t ih =>
    have hacovers := covers_of_mem_occurrences ht hspan ha
    have hbcovers := covers_of_mem_occurrences ht hspan hb
    rw [occurrences_eq, List.mem_cons] at ha hb
    -- the node itself covers everything, and its parts are a forest
    rcases ha with rfl | ha
    · exact .inr (.inl hbcovers)
    · rcases hb with rfl | hb
      · exact .inr (.inr hacovers)
      · exact nest_of_forest ht.placedIn_parts (fun u hu =>
          ih u hu (ht.placedIn_parts.placed u hu) (ht.placedIn_parts.mem hu).2.1) ha hb

/-- **The nodes of a placed forest nest.** -/
theorem nest_of_mem_occurrencesIn (h : PlacedIn lo hi forest) (ha : a ∈ occurrencesIn around forest)
    (hb : b ∈ occurrencesIn around forest) : a.node.span.Nest b.node.span :=
  nest_of_forest h (fun t ht => nest_of_mem_occurrences (h.placed t ht) (h.mem ht).2.1) ha hb

/-- The nodes around a node of a tree are nodes of the tree, or stand around it. -/
theorem exists_occurrence_of_mem_around {u : Tree κ} (ha : a ∈ t.occurrences around)
    (hu : u ∈ a.around) :
    u ∈ around ∨ ∃ b ∈ t.occurrences around, b.node = u := by
  induction t using induct generalizing around with
  | node t ih =>
    rcases mem_occurrences.mp ha with rfl | ⟨v, hv, ha⟩
    · exact .inl hu
    · rcases ih v hv ha with hu | ⟨b, hb, rfl⟩
      · rcases List.mem_cons.mp hu with rfl | hu
        · exact .inr ⟨_, mem_occurrences.mpr (.inl rfl), rfl⟩
        · exact .inl hu
      · exact .inr ⟨b, mem_occurrences.mpr (.inr ⟨v, hv, hb⟩), rfl⟩

/-- The nodes inside a node of a tree are nodes of the tree. -/
theorem mem_occurrences_of_mem_occurrences (ha : a ∈ t.occurrences around)
    (hb : b ∈ a.node.occurrences a.around) : b ∈ t.occurrences around := by
  induction t using induct generalizing around with
  | node t ih =>
    rcases mem_occurrences.mp ha with rfl | ⟨v, hv, ha⟩
    · exact hb
    · exact mem_occurrences.mpr (.inr ⟨v, hv, ih v hv ha⟩)

end Tree

/-! ## Declarations are located on nodes -/

/-- A declaration is located on the range of a node of a forest. -/
def Declaration.OnNode {κ : Type} (forest : List (Tree κ)) (d : Declaration) : Prop :=
  ∃ o ∈ Tree.occurrencesIn [] forest,
    d.location.start = o.node.span.start.byte ∧ d.location.stop = o.node.span.stop

namespace Java

variable {s : Source} {o : Occurrence Kind} {d : Declaration}

/-- What a node declares by itself is located on it, or on the nearest node around it. -/
theorem location_of_mem_own (hd : d ∈ (own s o).declarations) :
    ∃ t, (t = o.node ∨ t ∈ o.around) ∧ d.location.start = t.span.start.byte ∧
      d.location.stop = t.span.stop := by
  rw [own] at hd
  cases hkind : o.node.kind with
  | importClause => simp [hkind, declarations_importOf] at hd
  | invocation => simp [hkind, declarations_invocationOf] at hd
  | creation => simp [hkind, declarations_creationOf] at hd
  | typeDeclaration type =>
    simp only [hkind] at hd
    split at hd
    · rw [List.mem_singleton.mp hd]
      exact ⟨o.node, .inl rfl, rfl, rfl⟩
    · cases hd
  | method =>
    simp only [hkind] at hd
    split at hd
    · rw [List.mem_singleton.mp hd]
      exact ⟨o.node, .inl rfl, rfl, rfl⟩
    · cases hd
  | declarator =>
    simp only [hkind] at hd
    split at hd
    · next whole hwhole =>
      split at hd
      · rw [fieldOf] at hd
        split at hd
        · rw [List.mem_singleton.mp hd]
          exact ⟨whole, .inr (List.mem_of_mem_head? hwhole), rfl, rfl⟩
        · cases hd
      · cases hd
    · cases hd
  | _ => simp [hkind] at hd

/-- **A declaration of a Java file is located on a node of its tree.** -/
theorem onNode_of_mem_declarations {path : Path} {text : String}
    (hd : d ∈ (outline path text).declarations) : d.OnNode (tree text) := by
  rw [declarations_outline] at hd
  obtain ⟨o, ho, hd⟩ := List.mem_flatMap.mp hd
  have ho : o ∈ Tree.occurrencesIn [] (tree text) := List.mem_of_mem_filter ho
  obtain ⟨t, ht, hrange⟩ := location_of_mem_own hd
  rcases ht with rfl | ht
  · exact ⟨o, ho, hrange⟩
  · obtain ⟨u, hu, ho⟩ := Tree.mem_occurrencesIn.mp ho
    rcases Tree.exists_occurrence_of_mem_around ho ht with hnone | ⟨b, hb, rfl⟩
    · cases hnone
    · exact ⟨b, Tree.mem_occurrencesIn.mpr ⟨u, hu, hb⟩, hrange⟩

end Java

namespace Kotlin

variable {s : Source} {o : Occurrence Kind} {d : Declaration}

theorem exists_occurrence_of_mem_classParameters {t u : Node} (h : u ∈ classParameters t)
    (around : List Node) : ∃ b ∈ t.occurrences around, b.node = u := by
  induction t using Tree.induct generalizing around with
  | node t ih =>
    obtain ⟨kind, role, span, parts⟩ := t
    rw [classParameters] at h
    split at h
    · obtain rfl := List.mem_singleton.mp h
      exact ⟨_, Tree.mem_occurrences.mpr (.inl rfl), rfl⟩
    · rw [classParametersIn_eq] at h
      obtain ⟨v, hv, hu⟩ := List.mem_flatMap.mp h
      obtain ⟨b, hb, rfl⟩ := ih v hv hu _
      exact ⟨b, Tree.mem_occurrences.mpr (.inr ⟨v, hv, hb⟩), rfl⟩

/-- A property of a primary constructor is located on its parameter. -/
theorem location_of_mem_parameterProperties {owner : DeclarationId}
    (hd : d ∈ parameterProperties s owner o.node.parts) :
    ∃ b ∈ o.node.occurrences o.around,
      d.location.start = b.node.span.start.byte ∧ d.location.stop = b.node.span.stop := by
  rw [parameterProperties] at hd
  split at hd
  · next constructor hconstructor =>
    obtain ⟨u, hu, hd⟩ := List.mem_filterMap.mp (List.mem_reverse.mp hd)
    rw [classParametersIn_eq] at hu
    obtain ⟨v, hv, hu⟩ := List.mem_flatMap.mp hu
    obtain ⟨b, hb, rfl⟩ :=
      exists_occurrence_of_mem_classParameters hu (constructor :: o.node :: o.around)
    -- a parameter stands in the constructor, which is a part of the type
    have hinner : b ∈ o.node.occurrences o.around :=
      Tree.mem_occurrences.mpr (.inr ⟨constructor, (mem_of_ofKind? hconstructor).1,
        Tree.mem_occurrences.mpr (.inr ⟨v, hv, hb⟩)⟩)
    obtain ⟨hstart, hstop⟩ := (unmarked_of_parameterProperty? hd).1.range (.inr (by decide))
    rw [(writtenOn_of_parameterProperty? hd).1.id_eq] at hstart hstop
    exact ⟨b, hinner, hstart, hstop⟩
  · cases hd

/-- What a node declares by itself is located on it, or on a node inside it. -/
theorem location_of_mem_own (hd : d ∈ (own s o).declarations) :
    ∃ b ∈ o.node.occurrences o.around,
      d.location.start = b.node.span.start.byte ∧ d.location.stop = b.node.span.stop := by
  have hself : o ∈ o.node.occurrences o.around := Tree.mem_occurrences.mpr (.inl rfl)
  rw [own] at hd
  cases hkind : o.node.kind with
  | importClause => simp [hkind, declarations_importOf] at hd
  | classDeclaration | objectDeclaration | companion =>
    simp only [hkind] at hd
    split at hd
    · next type htype =>
      rcases List.mem_cons.mp hd with rfl | hd
      · obtain ⟨⟨name, anchor⟩, -, rfl⟩ := Option.map_eq_some_iff.mp htype
        exact ⟨o, hself, rfl, rfl⟩
      · exact location_of_mem_parameterProperties hd
    · cases hd
  | property =>
    simp only [hkind] at hd
    split at hd
    · next field hfield =>
      rw [List.mem_singleton.mp hd]
      split at hfield
      · cases hfield
      · obtain ⟨hstart, hstop⟩ := (unmarked_of_fieldOf? hfield).1.range (.inr (by decide))
        rw [(writtenOn_of_fieldOf? hfield).1.id_eq] at hstart hstop
        exact ⟨o, hself, hstart, hstop⟩
    · cases hd
  | function =>
    simp only [hkind] at hd
    split at hd
    · rw [List.mem_singleton.mp hd]
      exact ⟨o, hself, rfl, rfl⟩
    · cases hd
  | _ => simp [hkind] at hd

/-- **A declaration of a Kotlin file is located on a node of its tree.** -/
theorem onNode_of_mem_declarations {path : Path} {text : String}
    (hd : d ∈ (outline path text).declarations) : d.OnNode (tree text) := by
  rw [declarations_outline] at hd
  obtain ⟨o, ho, hd⟩ := List.mem_flatMap.mp hd
  obtain ⟨t, ht, ho⟩ := Tree.mem_occurrencesIn.mp (List.mem_of_mem_filter ho)
  obtain ⟨b, hb, hrange⟩ := location_of_mem_own hd
  exact ⟨b, Tree.mem_occurrencesIn.mpr ⟨t, ht, Tree.mem_occurrences_of_mem_occurrences ho hb⟩,
    hrange⟩

end Kotlin

/-! ## Outlines and projects -/

/-- Of the ranges of two locations one contains the other, or they share no byte. -/
def Location.Nest (l m : Location) : Prop :=
  l.Apart m ∨ l.contains m = true ∨ m.contains l = true

/-- The declarations of a file are located on ranges that nest. -/
def Outline.Laminar (o : Outline) : Prop :=
  ∀ d ∈ o.declarations, ∀ e ∈ o.declarations, d.location.Nest e.location

/-- Of two ranges around one byte, the longer contains the shorter. -/
theorem Location.Nest.contains_of_length_le {a b l : Location} (h : a.Nest b)
    (hl : l.start < l.stop)
    (ha : a.contains l = true) (hb : b.contains l = true) (hlength : b.length ≤ a.length) :
    a.contains b = true := by
  obtain ⟨-, hastart, hastop⟩ := contains_iff.mp ha
  obtain ⟨-, hbstart, hbstop⟩ := contains_iff.mp hb
  rcases h with h | h | h
  · rw [Apart] at h
    omega
  · exact h
  · -- `b` contains `a` and is no longer, so the two have one range
    obtain ⟨hfile, hstart, hstop⟩ := contains_iff.mp h
    rw [length, length] at hlength
    exact contains_iff.mpr ⟨Path.same_iff.mpr (Path.same_iff.mp hfile).symm, by omega, by omega⟩

/-- Declarations that are located on nodes of one forest, in one file, are located on ranges that
nest. -/
theorem Declaration.OnNode.nest {κ : Type} {forest : List (Tree κ)} {lo hi : Nat}
    {d e : Declaration}
    (hd : d.OnNode forest) (hforest : Tree.PlacedIn lo hi forest) (he : e.OnNode forest)
    (hfile : d.location.file = e.location.file) : d.location.Nest e.location := by
  obtain ⟨a, ha, hastart, hastop⟩ := hd
  obtain ⟨b, hb, hbstart, hbstop⟩ := he
  have hsame : d.location.file.same e.location.file = true := hfile ▸ Path.same_refl _
  have hsame' : e.location.file.same d.location.file = true := hfile ▸ Path.same_refl _
  rw [Location.Nest, Location.Apart, Location.contains_iff, Location.contains_iff, hastart,
    hastop, hbstart, hbstop]
  rcases Tree.nest_of_mem_occurrencesIn hforest ha hb with h | h | h
  · exact .inl h
  · exact .inr (.inl ⟨hsame, h⟩)
  · exact .inr (.inr ⟨hsame', h⟩)

theorem laminar_outlineOf {path : Path} {text : String} {o : Outline}
    (h : outlineOf path text = .ok o) :
    o.Laminar := by
  have hfile := (wellPlaced_outlineOf h).file_of_declaration
  intro d hd e he
  have hsame := (hfile d hd).trans (hfile e he).symm
  obtain ⟨kind, h⟩ := exists_outline_of_outlineOf h
  cases kind with
  | kotlin =>
    cases h
    obtain ⟨hi, htree⟩ := Kotlin.placed_tree text
    exact (Kotlin.onNode_of_mem_declarations hd).nest htree (Kotlin.onNode_of_mem_declarations he)
      hsame
  | java =>
    cases h
    obtain ⟨hi, htree⟩ := Java.placed_tree text
    exact (Java.onNode_of_mem_declarations hd).nest htree (Java.onNode_of_mem_declarations he) hsame
  | manifest =>
    rw [(Manifest.outline_eq_ok h).1] at hd
    cases hd

namespace Project

variable {p : Project} {l : Location} {d e : Declaration}

/-- The declarations of each file of a project are located on ranges that nest. -/
def Laminar (p : Project) : Prop :=
  ∀ d ∈ p.declarations, ∀ e ∈ p.declarations, d.location.file.same e.location.file = true →
    d.location.Nest e.location

section Sources

variable {sources : List (Path × String)}
    (hpaths : sources.Pairwise fun a b => a.1.same b.1 = false)

include hpaths

/-- **The declarations of each file of a project are located on ranges that nest**, if no path is
read twice. -/
theorem laminar_ofSources : (ofSources sources).1.Laminar := by
  intro d hd e he hfile
  rw [(distinct_ofSources hpaths).declarations_eq, ofSources_eq_ofOutlines] at hd he
  have hos : ∀ o ∈ outlines sources, o.WellPlaced := fun o => wellPlaced_of_mem_outlines
  obtain ⟨o, ho, he'⟩ := List.mem_flatMap.mp he
  rw [(hos o ho).file_of_declaration e he'] at hfile
  have hd' := mem_declarations_of_file hos (pairwise_outlines hpaths) ho hd hfile
  obtain ⟨source, -, ho⟩ := List.mem_filterMap.mp ho
  exact laminar_outlineOf (outlineOf_eq_ok ho) d hd' e he'

end Sources

/-! ## Chains -/

theorem perm_enclosing (hp : p.Distinct) (l : Location) :
    (p.enclosing l).Perm (p.declarations.filter fun d => d.location.contains l) := by
  rw [enclosing, inFile, hp.current_filter, hp.declarations_eq, List.filter_filter]
  -- what contains the location is in its file
  have hfile : ∀ d : Declaration, (d.location.contains l && d.location.file.same l.file) =
      d.location.contains l := by
    intro d
    cases hcontains : d.location.contains l with
    | false => rfl
    | true => rw [(Location.contains_iff.mp hcontains).1]; rfl
  simp only [hfile]
  exact List.mergeSort_perm _ _

/-- **Each declaration around a location contains the later ones.** -/
theorem Laminar.pairwise_enclosing (hp : p.Laminar) (hl : l.start < l.stop) :
    (p.enclosing l).Pairwise fun outer inner => outer.location.contains inner.location = true := by
  have hsorted : (p.enclosing l).Pairwise fun a b =>
      decide (b.location.length ≤ a.location.length) = true := by
    apply List.pairwise_mergeSort
    · intro a b c hab hbc
      rw [decide_eq_true_eq] at hab hbc ⊢
      exact hbc.trans hab
    · intro a b
      rw [Bool.or_eq_true, decide_eq_true_eq, decide_eq_true_eq]
      exact Nat.le_total _ _
  refine hsorted.imp_of_mem fun {a b} ha hb hlength => ?_
  obtain ⟨ha, hacontains⟩ := mem_enclosing_iff.mp ha
  obtain ⟨hb, hbcontains⟩ := mem_enclosing_iff.mp hb
  have hfile : a.location.file.same b.location.file = true :=
    Path.same_iff.mpr ((Path.same_iff.mp (Location.contains_iff.mp hacontains).1).trans
      (Path.same_iff.mp (Location.contains_iff.mp hbcontains).1).symm)
  exact (hp a ha b hb hfile).contains_of_length_le hl hacontains hbcontains
    (of_decide_eq_true hlength)

theorem mem_filter_enclosing {t : Declaration} :
    t ∈ (p.enclosing l).filter Declaration.isType ↔ t ∈ p.types ∧ t.location.contains l = true := by
  rw [List.mem_filter, mem_enclosing_iff, types, List.mem_filter, and_right_comm]

/-- The innermost type around a location lies in every other one. -/
theorem Laminar.enclosingType?_contained (hp : p.Laminar) (hl : l.start < l.stop)
    {t u : Declaration}
    (ht : p.enclosingType? l = some t) (hu : u ∈ p.types) (hul : u.location.contains l = true) :
    u.location.contains t.location = true := by
  have hchain := (hp.pairwise_enclosing hl).filter Declaration.isType
  obtain ⟨before, hsplit⟩ := List.getLast?_eq_some_iff.mp ht
  have hmem := mem_filter_enclosing.mpr ⟨hu, hul⟩
  rw [hsplit] at hchain hmem
  rcases List.mem_append.mp hmem with hmem | hmem
  · exact (List.pairwise_append.mp hchain).2.2 u hmem t (List.mem_singleton_self t)
  · rw [List.mem_singleton.mp hmem]
    exact Location.contains_iff.mpr ⟨Path.same_refl _, le_rfl, le_rfl⟩

theorem enclosingType?_eq_none_iff :
    p.enclosingType? l = none ↔ ∀ t ∈ p.types, t.location.contains l = false := by
  rw [enclosingType?, List.getLast?_eq_none_iff, List.eq_nil_iff_forall_not_mem]
  simp only [mem_filter_enclosing, not_and, Bool.not_eq_true]

/-- **The declarations around a location form a chain.** If no path is read twice, then the
declarations around a location that has a byte are those of its file whose range contains it, each
once, and each of them contains all later ones. So the innermost type around the location is found
if there is one, and it lies in every other type around the location. -/
theorem enclosing_forms_chain (sources : List (Path × String))
    (hpaths : sources.Pairwise fun a b => a.1.same b.1 = false) (l : Location)
    (hl : l.start < l.stop) :
    let p := (ofSources sources).1
    (p.enclosing l).Perm (p.declarations.filter fun d => d.location.contains l) ∧
      (p.enclosing l).Pairwise (fun outer inner => outer.location.contains inner.location = true) ∧
      (∀ t, p.enclosingType? l = some t →
        (t ∈ p.types ∧ t.location.contains l = true) ∧
          ∀ u ∈ p.types, u.location.contains l = true → u.location.contains t.location = true) ∧
      (p.enclosingType? l = none ↔ ∀ t ∈ p.types, t.location.contains l = false) := by
  have hlaminar := laminar_ofSources hpaths
  refine ⟨perm_enclosing (distinct_ofSources hpaths) l, hlaminar.pairwise_enclosing hl,
    fun t ht => ?_, enclosingType?_eq_none_iff⟩
  exact ⟨mem_filter_enclosing.mp (List.mem_of_getLast? ht),
    fun u => hlaminar.enclosingType?_contained hl ht⟩

/-- A method in the value of the second of two fields, which have one range, and a file next to
it. -/
def nestedSources : List (Path × String) :=
  [(⟨"src/A.java"⟩,
      "class A \x7b class B \x7b Object x = 1, y = new C() " ++
        "\x7b int f() \x7b return g(); \x7d \x7d; \x7d \x7d"),
    (⟨"src/B.kt"⟩, "class B(val x: Int) \x7b fun f() = x \x7d")]

/-- A call in that method. -/
def nestedCall : Location := ⟨⟨"src//A.java"⟩, 1, 66, 65, 68⟩

theorem enclosing_forms_chain_nestedSources :
    let p := (ofSources nestedSources).1
    (nestedSources.Pairwise fun a b => a.1.same b.1 = false) ∧ nestedCall.start < nestedCall.stop ∧
      ((p.declarations.filter fun d => d.location.contains nestedCall).map fun d =>
          (d.name, d.location.start, d.location.stop)) =
        [("A", 0, 78), ("B", 10, 76), ("x", 20, 74), ("y", 20, 74), ("f", 48, 71)] ∧
      (p.enclosing nestedCall).Perm (p.declarations.filter fun d =>
        d.location.contains nestedCall) ∧
      (p.enclosing nestedCall).Pairwise fun outer inner =>
        outer.location.contains inner.location = true := by
  have hpaths : nestedSources.Pairwise fun a b => a.1.same b.1 = false := by decide
  have hcall : nestedCall.start < nestedCall.stop := by decide
  obtain ⟨hperm, hchain, -⟩ := enclosing_forms_chain nestedSources hpaths nestedCall hcall
  exact ⟨hpaths, hcall, by decide +kernel, hperm, hchain⟩

end Project

end AdLint
