import AdLint.Proofs.JavaShape
import AdLint.Proofs.Nesting
import AdLint.Proofs.Occurrences

/-!
# The visit of a Java file

Of a clause nothing is visited, of a type and a method only the bodies, and of a field only the
values of its variables. All other nodes are visited. What a file yields is put together from what
each node yields that does not lie in what is passed over. Most nodes yield nothing of their own,
and none yields anything that depends on where it stands, except for the declaration that it stands
in: this is the innermost type or method around it.

## Main definitions

* `Java.passesOver`: what is not visited of the node around it
* `Java.ownerOf`: the declaration that nodes stand in
* `Java.own`: what a node yields by itself

## Main results

* `Java.yield_visit`: what a node yields is what its visible nodes yield by themselves
-/

namespace AdLint.Java

open AdLint.Tree (EveryIn hidden gather gather_eq gather_eq_all gather_eq_none visibleIn)

/-- Whether a node is not visited, given the nodes around it: it lies in a clause, or outside the
bodies of a type or a method, or outside the values of the variables of a field. -/
def passesOver (t : Node) : List Node → Bool
  | [] => false
  | outer :: beyond =>
    match outer.kind with
    | .packageClause | .importClause => true
    | .typeDeclaration _ | .method => t.role != .body
    | .field => t.kind != .declarator
    | .declarator => (beyond.head?.any fun whole => whole.kind == .field) && t.role != .value
    | _ => false

/-- Whether a node declares a type or a method, which owns what stands in its bodies. -/
def owns (t : Node) : Bool :=
  match t.kind with
  | .typeDeclaration _ | .method => true
  | _ => false

/-- The declaration that nodes stand in: the innermost type or method. The nearest node comes
first. -/
def ownerOf (s : Source) (around : List Node) : Option DeclarationId :=
  (around.find? owns).map fun t => s.identify t.span

/-- What a node yields by itself. -/
def own (s : Source) (o : Occurrence Kind) : Harvest :=
  let span := o.node.span
  let parts := o.node.parts
  match o.node.kind with
  | .packageClause => { package := clauseName? s parts }
  | .importClause => importOf s parts
  | .typeDeclaration type =>
    match inRole? parts .name with
    | some name =>
      { declarations :=
          [{ declarationOf s type span span name (ownerOf s o.around) parts with
             superTypes := parts.flatMap (superTypesIn s) }] }
    | none => {}
  | .method =>
    match inRole? parts .name with
    | some name =>
      { declarations :=
          [{ declarationOf s .method span span name (ownerOf s o.around) parts with
             typeName := typeOf? s parts }] }
    | none => {}
  | .declarator =>
    match o.around.head? with
    | some whole =>
      if whole.kind == .field then fieldOf s (ownerOf s o.around) whole.span whole.parts span parts
      else {}
    | none => {}
  | .invocation => invocationOf s span parts
  | .creation => creationOf s span parts
  | _ => {}

variable {α : Type} (y : Harvest.Yield α) {s : Source} {parent : Option DeclarationId}
  {starts : Place → Prop}

/-! ## What the parts of a node yield -/

theorem yield_visitAll (forest : List Node) :
    y.of (visitAll s parent forest) = forest.flatMap fun t => y.of (visit s parent t) := by
  induction forest with
  | nil => exact y.of_empty
  | cons t forest ih => rw [visitAll, y.of_append, ih, List.flatMap_cons]

theorem yield_visitBodies (forest : List Node) :
    y.of (visitBodies s parent forest) =
      forest.flatMap fun t => if t.role == .body then y.of (visitAll s parent t.parts) else [] := by
  induction forest with
  | nil => exact y.of_empty
  | cons t forest ih =>
    obtain ⟨kind, role, span, parts⟩ := t
    rw [visitBodies, y.of_append, ih, List.flatMap_cons, Tree.role, Tree.parts]
    split
    · rfl
    · rw [y.of_empty]

theorem yield_visitValues (forest : List Node) :
    y.of (visitValues s parent forest) =
      forest.flatMap fun t => if t.role == .value then y.of (visit s parent t) else [] := by
  induction forest with
  | nil => exact y.of_empty
  | cons t forest ih =>
    rw [visitValues, y.of_append, ih, List.flatMap_cons]
    split
    · rfl
    · rw [y.of_empty]

theorem yield_visitDeclarators (field : Span → List Node → Harvest) (forest : List Node) :
    y.of (visitDeclarators s parent field forest) =
      forest.flatMap fun t =>
        if t.kind == .declarator then
          y.of (field t.span t.parts) ++ y.of (visitValues s parent t.parts)
        else [] := by
  induction forest with
  | nil => exact y.of_empty
  | cons t forest ih =>
    obtain ⟨kind, role, span, parts⟩ := t
    rw [visitDeclarators, y.of_append, ih, List.flatMap_cons, Tree.kind, Tree.parts, Tree.span]
    split
    · rw [y.of_append]
    · rw [y.of_empty]

/-- A body is visited like any other phrase: only blocks are bodies, and the visit of a block goes
through all its parts. -/
theorem yield_bodies {forest : List Node} (h : EveryIn (promise starts).Met forest) :
    y.of (visitBodies s parent forest) =
      forest.flatMap fun t => if t.role == .body then y.of (visit s parent t) else [] := by
  rw [yield_visitBodies]
  refine List.flatMap_congr fun t ht => ?_
  obtain ⟨kind, role, span, parts⟩ := t
  split
  · next hrole =>
    have hbody : role = .body := beq_iff_eq.mp hrole
    obtain rfl : kind = .other := (h _ ht).here.reserved .other (by rw [Tree.role, hbody])
    rfl
  · rfl

/-- A part that a node needs is found. -/
theorem exists_inRole? {parts : List Node} {role : Role}
    (h : ∃ t ∈ parts, (Need.role role).MetBy t) :
    ∃ t, inRole? parts role = some t := by
  obtain ⟨t, ht, hrole⟩ := h
  refine Option.isSome_iff_exists.mp (List.find?_isSome.mpr ⟨t, ht, ?_⟩)
  exact beq_iff_eq.mpr hrole

/-! ## What a node yields -/

theorem ownerOf_cons (t : Node) (around : List Node) :
    ownerOf s (t :: around) = if owns t then some (s.identify t.span) else ownerOf s around := by
  rw [ownerOf, List.find?_cons]
  cases owns t <;> rfl

/-- What the visible nodes of a node yield by themselves. -/
abbrev yieldOf (s : Source) (around : List Node) (t : Node) : List α :=
  gather passesOver (fun o => y.of (own s o)) around t

/-- The parts of a node yield what their visible nodes do. -/
def PartsYield (s : Source) (around : List Node) (t : Node) : Prop :=
  ∀ u ∈ t.parts, hidden passesOver u (t :: around) = false →
    y.of (visit s (ownerOf s (t :: around)) u) = yieldOf y s (t :: around) u

namespace PartsYield

variable {y} {around : List Node} {t : Node}

theorem visitAll (h : PartsYield y s around t) (hseen : hidden passesOver t around = false)
    (hnone : ∀ u, passesOver u (t :: around) = false) (howns : owns t = false) :
    y.of (own s ⟨t, around⟩) ++ y.of (visitAll s (ownerOf s around) t.parts) =
      yieldOf y s around t := by
  rw [yieldOf, gather_eq_all hseen hnone h, yield_visitAll, ownerOf_cons, howns]
  rfl

/-- Of a type and of a method only the bodies are visited. -/
theorem visitBodies (h : PartsYield y s around t) (hseen : hidden passesOver t around = false)
    (hparts : EveryIn (promise starts).Met t.parts)
    (hbodies : ∀ u, passesOver u (t :: around) = !(u.role == .body)) (howns : owns t = true) :
    y.of (own s ⟨t, around⟩) ++ y.of (visitBodies s (some (s.identify t.span)) t.parts) =
      yieldOf y s around t := by
  rw [yieldOf, gather_eq hseen hbodies fun u hu _ => h u hu, yield_bodies y hparts,
    ownerOf_cons, howns]
  rfl

/-- Of a declarator of a field only the value is visited. -/
theorem visitValues (h : PartsYield y s around t) (hseen : hidden passesOver t around = false)
    (hvalues : ∀ u, passesOver u (t :: around) = !(u.role == .value)) (howns : owns t = false) :
    y.of (own s ⟨t, around⟩) ++ y.of (visitValues s (ownerOf s around) t.parts) =
      yieldOf y s around t := by
  rw [yieldOf, gather_eq hseen hvalues fun u hu _ => h u hu, yield_visitValues, ownerOf_cons, howns]
  rfl

end PartsYield

/-- A declarator that stands in no field yields nothing by itself. -/
theorem own_of_local {t : Node} {around : List Node} (hkind : t.kind = .declarator)
    (hlocal : (around.head?.any fun whole => whole.kind == .field) = false) :
    own s ⟨t, around⟩ = {} := by
  simp only [own, hkind]
  cases around with
  | nil => rfl
  | cons outer beyond => exact if_neg (by simpa using hlocal)

/-- What a field yields is what its declarators do. -/
theorem yield_field {t : Node} {around : List Node} (hkind : t.kind = .field)
    (hseen : hidden passesOver t around = false)
    (h : ∀ u ∈ t.parts, u.kind = .declarator → hidden passesOver u (t :: around) = false →
      y.of (own s ⟨u, t :: around⟩) ++ y.of (visitValues s (ownerOf s (t :: around)) u.parts) =
        yieldOf y s (t :: around) u) :
    y.of
      (visitDeclarators s (ownerOf s around) (fieldOf s (ownerOf s around) t.span t.parts)
        t.parts) =
      yieldOf y s around t := by
  have howner : ownerOf s (t :: around) = ownerOf s around := by
    rw [ownerOf_cons, owns, hkind]
    rfl
  have hpasses : ∀ u, passesOver u (t :: around) = !(u.kind == .declarator) := by
    intro u
    rw [passesOver, hkind]
    rfl
  have hnothing : own s ⟨t, around⟩ = {} := by simp only [own, hkind]
  rw [yieldOf, gather_eq hseen hpasses fun u hu hdeclarator => (h u hu (beq_iff_eq.mp hdeclarator)),
    hnothing, y.of_empty, List.nil_append, yield_visitDeclarators, howner]
  refine List.flatMap_congr fun u _ => ?_
  split
  · next hdeclarator =>
    -- a declarator reads what it needs of the field off the nearest node around it
    have hown : own s ⟨u, t :: around⟩ =
        fieldOf s (ownerOf s around) t.span t.parts u.span u.parts := by
      simp only [own, beq_iff_eq.mp hdeclarator, List.head?_cons, hkind, howner]
      rfl
    rw [hown]
  · rfl

/-- **What a node yields is what its visible nodes yield by themselves**, in their order. Of a
declarator in a field only the value is visited. -/
theorem yield_visit {t : Node} (ht : t.Every (promise starts).Met) {around : List Node}
    (hseen : hidden passesOver t around = false) :
    ((∀ outer ∈ around.head?, outer.kind ≠ .field) →
        y.of (visit s (ownerOf s around) t) = yieldOf y s around t) ∧
      ((∃ outer ∈ around.head?, outer.kind = .field) → t.kind = .declarator →
        y.of (own s ⟨t, around⟩) ++ y.of (visitValues s (ownerOf s around) t.parts) =
          yieldOf y s around t) := by
  induction ht generalizing around with
  | @node kind role span parts hhere hparts ih =>
    -- only the parts of a field are not visited themselves
    have hyield : kind ≠ .field → PartsYield y s around (.node kind role span parts) := by
      intro hfield u hu hpart
      refine (ih u hu hpart).1 fun outer houter => ?_
      obtain rfl := Option.some.inj houter
      exact hfield
    refine ⟨fun hfield => ?_, fun hfield hkind => ?_⟩
    · cases kind with
      | packageClause =>
        rw [yieldOf, gather_eq_none hseen fun _ => rfl]
        rfl
      | importClause =>
        rw [yieldOf, gather_eq_none hseen fun _ => rfl]
        rfl
      | typeDeclaration type =>
        -- without a name the whole of a type would be visited, but the grammar asks for one
        obtain ⟨name, hname⟩ := exists_inRole? (hhere.needed (.role .name) (role_mem_needs type))
        rw [← (hyield (by simp)).visitBodies hseen hparts (fun _ => rfl) rfl]
        simp only [visit, own, Tree.kind, Tree.parts, Tree.span, hname, y.of_append]
        rfl
      | method =>
        obtain ⟨name, hname⟩ := exists_inRole? (hhere.needed (.role .name) (by simp))
        rw [← (hyield (by simp)).visitBodies hseen hparts (fun _ => rfl) rfl]
        simp only [visit, own, Tree.kind, Tree.parts, Tree.span, hname, y.of_append]
        rfl
      | field =>
        exact yield_field y rfl hseen fun u hu hdeclarator hpart =>
          (ih u hu hpart).2 ⟨_, rfl, rfl⟩ hdeclarator
      | declarator =>
        -- one of a local variable, of which the name and the value are both visited
        have hlocal : (around.head?.any fun whole => whole.kind == .field) = false := by
          cases around with
          | nil => rfl
          | cons outer beyond => exact beq_eq_false_iff_ne.mpr (hfield outer rfl)
        rw [← (hyield (by simp)).visitAll hseen
          (fun u => by rw [passesOver, Tree.kind, hlocal, Bool.false_and]) rfl,
          own_of_local rfl hlocal, y.of_empty]
        rfl
      | invocation =>
        rw [visit, y.of_append]
        exact (hyield (by simp)).visitAll hseen (fun _ => rfl) rfl
      | creation =>
        rw [visit, y.of_append]
        exact (hyield (by simp)).visitAll hseen (fun _ => rfl) rfl
      | _ =>
        rw [← (hyield (by simp)).visitAll hseen (fun _ => rfl) rfl]
        simp only [visit, own, Tree.kind, Tree.parts, y.of_empty, List.nil_append]
    · obtain rfl : kind = .declarator := hkind
      have hwhole : (around.head?.any fun whole => whole.kind == .field) = true := by
        obtain ⟨outer, houter, hkind⟩ := hfield
        rw [Option.mem_def.mp houter]
        exact beq_iff_eq.mpr hkind
      exact (hyield (by simp)).visitValues hseen
        (fun u => by rw [passesOver, Tree.kind, hwhole, Bool.true_and]; rfl) rfl

/-- What a file yields is what the visible nodes of its tree yield by themselves. -/
theorem yield_visitForest {forest : List Node} (h : EveryIn (promise starts).Met forest) :
    y.of (visitAll s none forest) = forest.flatMap (yieldOf y s []) := by
  rw [yield_visitAll]
  refine List.flatMap_congr fun t ht => ?_
  have hseen : hidden passesOver t [] = false := rfl
  exact (yield_visit y (h t ht) hseen).1 (by simp)

end AdLint.Java
