import AdLint.Kotlin.Outline
import AdLint.Proofs.Nesting
import AdLint.Proofs.Occurrences

/-!
# The visit of a Kotlin file

Of a clause nothing is visited, of a type with a name only the body, of a function with a name only
the body, and of a property that is a field only its value or its delegate. All other nodes are
visited. What a file yields is put together from what each node yields that does not lie in what is
passed over. What a node yields by itself depends on where it stands in two ways: through the
innermost type or function with a name around it, and through whether this is a function.

## Main definitions

* `Kotlin.inFunction`: whether nodes stand in the body of a function
* `Kotlin.passesOver`: what is not visited of the node around it
* `Kotlin.ownerOf`: the declaration that nodes stand in
* `Kotlin.own`: what a node yields by itself

## Main results

* `Kotlin.yield_visit`: what a node yields is what its visible nodes yield by themselves
-/

namespace AdLint.Kotlin

open AdLint.Tree (PlacedIn hidden gather gather_eq gather_eq_all gather_eq_none visibleIn)

/-- Whether a node for a type has a name. A companion without one is named by its keyword. -/
def hasTypeName (s : Source) (t : Node) : Bool := (typeNameOf? s t.kind t.span t.parts).isSome

/-- Whether a node for a function has a name. -/
def hasName (t : Node) : Bool := (ofKind? t.parts .name).isSome

/-- Whether nodes stand in a function, and in no type inside of it. The nearest node comes first. -/
def inFunction (s : Source) : List Node → Bool
  | [] => false
  | outer :: beyond =>
    match outer.kind with
    | .classDeclaration | .objectDeclaration | .companion =>
      !hasTypeName s outer && inFunction s beyond
    | .function => hasName outer || inFunction s beyond
    | _ => inFunction s beyond

/-- Whether a property that stands in other nodes is a field: it has one name, and is no
local variable. -/
def isField (s : Source) (t : Node) (around : List Node) : Bool :=
  !inFunction s around &&
    ((ofKind? t.parts .variable).bind fun declared => ofKind? declared.parts .name).isSome

/-- Whether a part of a field is its value, or its delegate if it has no value. -/
def isValue (s : Source) (whole t : Node) : Bool :=
  match valueOf? s whole.parts with
  | some value => t.span == value.span
  | none => t.kind == .delegate

/-- Whether a node is not visited, given the nodes around it: it lies in a clause, or outside the
body of a type or a function, or outside the value of a field. -/
def passesOver (s : Source) (t : Node) : List Node → Bool
  | [] => false
  | outer :: beyond =>
    match outer.kind with
    | .packageClause | .importClause => true
    | .classDeclaration | .objectDeclaration | .companion =>
      hasTypeName s outer && !(t.kind == .classBody)
    | .function => hasName outer && !(t.kind == .functionBody)
    | .property => isField s outer beyond && !isValue s outer t
    | _ => false

/-- Whether a node declares a type or a function that has a name, which owns what stands in its
body. -/
def owns (s : Source) (t : Node) : Bool :=
  match t.kind with
  | .classDeclaration | .objectDeclaration | .companion => hasTypeName s t
  | .function => hasName t
  | _ => false

/-- The declaration that nodes stand in: the innermost type or function with a name. The nearest
node comes first. -/
def ownerOf (s : Source) (around : List Node) : Option DeclarationId :=
  (around.find? (owns s)).map fun t => s.identify t.span

/-- Where a node stands that has these nodes around it. -/
def contextOf (s : Source) (around : List Node) : Context :=
  { parent := ownerOf s around, inFunction := inFunction s around }

/-- What a node yields by itself. -/
def own (s : Source) (o : Occurrence Kind) : Harvest :=
  let span := o.node.span
  let parts := o.node.parts
  match o.node.kind with
  | .packageClause =>
    { package := (ofKind? parts .path).map fun path => Text.compact (s.slice path.span) }
  | .importClause => importOf s parts
  | .classDeclaration | .objectDeclaration | .companion =>
    match typeOf? s (ownerOf s o.around) o.node.kind span parts with
    | some type => { declarations := type :: parameterProperties s type.id parts }
    | none => {}
  | .property =>
    match if inFunction s o.around then none else fieldOf? s (ownerOf s o.around) span parts with
    | some field => { declarations := [field] }
    | none => {}
  | .function =>
    match ofKind? parts .name with
    | some name =>
      { declarations :=
          [declarationOf s .method span name.span (s.slice name.span) (ownerOf s o.around) parts] }
    | none => {}
  | .call => { calls := (callOf? s span parts).toList }
  | _ => {}

variable {α : Type} (y : Harvest.Yield α) {s : Source} {context : Context}

/-! ## What the parts of a node yield -/

theorem yield_visitAll (forest : List Node) :
    y.of (visitAll s context forest) = forest.flatMap fun t => y.of (visit s context t) := by
  induction forest with
  | nil => exact y.of_empty
  | cons t forest ih => rw [visitAll, y.of_append, ih, List.flatMap_cons]

theorem yield_visitParts (kind : Kind) (forest : List Node) :
    y.of (visitParts s context kind forest) =
      forest.flatMap fun t => if t.kind == kind then y.of (visitAll s context t.parts) else [] := by
  induction forest with
  | nil => exact y.of_empty
  | cons t forest ih =>
    obtain ⟨own, role, span, parts⟩ := t
    rw [visitParts, y.of_append, ih, List.flatMap_cons, Tree.kind, Tree.parts]
    split
    · rfl
    · rw [y.of_empty]

/-- The parts of a kind whose nodes are visited like any other phrase. -/
theorem yield_parts {kind : Kind} (forest : List Node)
    (hkind : ∀ role span parts, visit s context (.node kind role span parts) =
      visitAll s context parts) :
    y.of (visitParts s context kind forest) =
      forest.flatMap fun t => if t.kind == kind then y.of (visit s context t) else [] := by
  rw [yield_visitParts]
  refine List.flatMap_congr fun t _ => ?_
  obtain ⟨own, role, span, parts⟩ := t
  split
  · next hown =>
    obtain rfl : own = kind := beq_iff_eq.mp hown
    rw [hkind]
    rfl
  · rfl

theorem visitValue_true (forest : List Node) :
    visitValue s context true forest =
      ((forest.find? Tree.isNamed).map (visit s context)).getD {} := by
  induction forest with
  | nil => rfl
  | cons t forest ih =>
    rw [visitValue, if_pos rfl, List.find?_cons]
    split
    · next h => rw [h]; rfl
    · next h => rw [Bool.not_eq_true] at h; rw [h, ih]

/-- What is visited as the value of a property is its value. -/
theorem visitValue_false (forest : List Node) :
    visitValue s context false forest = ((valueOf? s forest).map (visit s context)).getD {} := by
  induction forest with
  | nil => rfl
  | cons t forest ih =>
    rw [visitValue, if_neg (by decide), valueOf?, afterEquals]
    split
    · next h => rw [h, visitValue_true]
    · next h => rw [Bool.not_eq_true] at h; rw [h, ih, valueOf?]

/-- The value of a property is one of its parts, and its equals sign is another one. -/
theorem mem_of_valueOf? {parts : List Node} {t : Node} (h : valueOf? s parts = some t) :
    t ∈ parts ∧ ∃ u ∈ parts, t ≠ u := by
  induction parts with
  | nil => cases h
  | cons u parts ih =>
    rw [valueOf?, afterEquals] at h
    split at h
    · next hequals =>
      have hnamed := List.find?_some h
      refine ⟨List.mem_cons_of_mem u (List.mem_of_find?_eq_some h), u, List.mem_cons_self, ?_⟩
      -- an equals sign is a token, and a value is none
      rintro rfl
      simp [hnamed] at hequals
    · obtain ⟨ht, v, hv, hne⟩ := ih h
      exact ⟨List.mem_cons_of_mem u ht, v, List.mem_cons_of_mem u hv, hne⟩

/-- Of the parts of a node one is on the span of a given part: that part. -/
theorem flatMap_on_span {lo hi : Nat} {forest : List Node} {v : Node} {g : Node → List α}
    (h : PlacedIn lo hi forest) (hv : v ∈ forest) :
    (forest.flatMap fun u => if u.span == v.span then g u else []) = g v := by
  induction forest generalizing lo with
  | nil => cases hv
  | cons u forest ih =>
    obtain ⟨-, hne, hrest⟩ := h.inOrder
    -- spans come in order, so that what follows starts behind this one
    have hlater : ∀ w ∈ forest, u.span ≠ w.span := by
      intro w hw heq
      have := (h.tail.mem hw).1
      rw [← heq] at this
      omega
    rw [List.flatMap_cons]
    rcases List.mem_cons.mp hv with rfl | hv
    · rw [beq_self_eq_true, if_pos rfl, List.flatMap_eq_nil_iff.mpr, List.append_nil]
      intro w hw
      rw [if_neg]
      simpa using (hlater w hw).symm
    · rw [ih h.tail hv, if_neg, List.nil_append]
      simpa using hlater v hv

theorem writtenOn_of_typeOf? {parent : Option DeclarationId} {kind : Kind} {span : Span}
    {parts : List Node} {d : Declaration} (h : typeOf? s parent kind span parts = some d) :
    d.WrittenOn s.path span ∧ d.parent = parent := by
  obtain ⟨⟨name, anchor⟩, -, h⟩ := Option.map_eq_some_iff.mp h
  cases h
  exact ⟨⟨rfl, rfl⟩, rfl⟩

theorem hasTypeName_eq (t : Node) (parent : Option DeclarationId) :
    hasTypeName s t = (typeOf? s parent t.kind t.span t.parts).isSome := by
  rw [typeOf?, Option.isSome_map, hasTypeName]

theorem isField_eq (t : Node) (around : List Node) (parent : Option DeclarationId) :
    isField s t around =
      (if inFunction s around then none else fieldOf? s parent t.span t.parts).isSome := by
  have hnames : (fieldOf? s parent t.span t.parts).isSome =
      ((ofKind? t.parts .variable).bind fun declared => ofKind? declared.parts .name).isSome := by
    rw [fieldOf?]
    cases ofKind? t.parts .variable with
    | none => rfl
    | some declared => cases hname : ofKind? declared.parts .name <;> simp [hname]
  rw [isField, ← hnames]
  split
  · next h => rw [h]; rfl
  · next h => rw [Bool.not_eq_true] at h; rw [h]; rfl

/-- What a field yields is what its value yields, or else its delegate. -/
theorem yield_field {t : Node} (ht : t.Placed) :
    y.of (if (valueOf? s t.parts).isSome then visitValue s context false t.parts
      else visitParts s context .delegate t.parts) =
      t.parts.flatMap fun u => if isValue s t u then y.of (visit s context u) else [] := by
  cases hvalue : valueOf? s t.parts with
  | none =>
    simp only [isValue, hvalue]
    exact yield_parts y t.parts fun _ _ _ => rfl
  | some v =>
    simp only [isValue, hvalue]
    rw [flatMap_on_span ht.placedIn_parts (mem_of_valueOf? hvalue).1,
      Option.isSome_some, if_pos rfl, visitValue_false, hvalue]
    rfl

/-! ## What a node yields -/

/-- What a node for a type yields by itself. -/
theorem own_of_type {o : Occurrence Kind}
    (hkind : o.node.kind = .classDeclaration ∨ o.node.kind = .objectDeclaration ∨
      o.node.kind = .companion) :
    own s o = match typeOf? s (ownerOf s o.around) o.node.kind o.node.span o.node.parts with
      | some type => { declarations := type :: parameterProperties s type.id o.node.parts }
      | none => {} := by
  rcases hkind with hkind | hkind | hkind <;> simp only [own, hkind]

/-- A type owns what stands in its body if it has a name. -/
theorem owns_of_type {t : Node}
    (hkind : t.kind = .classDeclaration ∨ t.kind = .objectDeclaration ∨ t.kind = .companion) :
    owns s t = hasTypeName s t := by
  rcases hkind with hkind | hkind | hkind <;> rw [owns, hkind]

/-- A node that owns nothing leaves where its parts stand unchanged. -/
theorem contextOf_cons_of_not_owns {t : Node} (around : List Node) (h : owns s t = false) :
    contextOf s (t :: around) = contextOf s around := by
  have howner : ownerOf s (t :: around) = ownerOf s around := by
    rw [ownerOf, List.find?_cons, h]
    rfl
  have hfunction : inFunction s (t :: around) = inFunction s around := by
    unfold owns at h
    rw [inFunction]
    split
    all_goals simp_all
  rw [contextOf, howner, hfunction]
  rfl

/-- What the visible nodes of a node yield by themselves. -/
abbrev yieldOf (s : Source) (around : List Node) (t : Node) : List α :=
  gather (passesOver s) (fun o => y.of (own s o)) around t

/-- The parts of a node yield what their visible nodes do. -/
def PartsYield (s : Source) (around : List Node) (t : Node) : Prop :=
  ∀ u ∈ t.parts, hidden (passesOver s) u (t :: around) = false →
    y.of (visit s (contextOf s (t :: around)) u) = yieldOf y s (t :: around) u

namespace PartsYield

variable {y} {around : List Node} {t : Node}

theorem visitAll (h : PartsYield y s around t) (hseen : hidden (passesOver s) t around = false)
    (hnone : ∀ u, passesOver s u (t :: around) = false) (howns : owns s t = false) :
    y.of (own s ⟨t, around⟩) ++ y.of (visitAll s (contextOf s around) t.parts) =
      yieldOf y s around t := by
  rw [yieldOf, gather_eq_all hseen hnone h, yield_visitAll, contextOf_cons_of_not_owns around howns]

/-- Of a type that has a name only the body is visited, outside of any function. -/
theorem type (h : PartsYield y s around t) (hseen : hidden (passesOver s) t around = false)
    (hkind : t.kind = .classDeclaration ∨ t.kind = .objectDeclaration ∨ t.kind = .companion) :
    y.of (match typeOf? s (ownerOf s around) t.kind t.span t.parts with
      | some type =>
        ({ declarations := type :: parameterProperties s type.id t.parts } : Harvest) ++
          visitParts s { parent := some type.id } .classBody t.parts
      | none => Kotlin.visitAll s (contextOf s around) t.parts) = yieldOf y s around t := by
  have hself := own_of_type (s := s) (o := ⟨t, around⟩) hkind
  have hpasses :
      ∀ u, passesOver s u (t :: around) = (hasTypeName s t && !(u.kind == .classBody)) := by
    intro u
    rcases hkind with hkind | hkind | hkind <;> rw [passesOver, hkind]
  have howns : owns s t = hasTypeName s t := owns_of_type hkind
  have hnamed := hasTypeName_eq (s := s) t (ownerOf s around)
  dsimp only at hself
  cases htype : typeOf? s (ownerOf s around) t.kind t.span t.parts with
  | none =>
    rw [htype] at hself hnamed
    rw [← h.visitAll hseen (fun u => by rw [hpasses, hnamed]; rfl) (howns.trans hnamed), hself,
      y.of_empty]
    rfl
  | some type =>
    rw [htype] at hself hnamed
    -- a name decides both that the head is passed over and that a function around the type is left
    have hcontext : contextOf s (t :: around) = { parent := some type.id } := by
      have hinner : inFunction s (t :: around) = false := by
        rcases hkind with hkind | hkind | hkind <;> rw [inFunction, hkind, hnamed] <;> rfl
      rw [contextOf, hinner, ownerOf, List.find?_cons, howns, hnamed,
        (writtenOn_of_typeOf? htype).1.id_eq]
      rfl
    rw [yieldOf, gather_eq (p := fun u => u.kind == .classBody) hseen
      (fun u => by rw [hpasses, hnamed]; rfl) fun u hu _ => h u hu, hself, y.of_append, hcontext]
    congr 1
    exact yield_parts y t.parts fun _ _ _ => rfl

/-- Of a function that has a name only the body is visited. -/
theorem function (h : PartsYield y s around t) (hseen : hidden (passesOver s) t around = false)
    (hkind : t.kind = .function) :
    y.of (match ofKind? t.parts .name with
      | some name =>
        let method :=
          declarationOf s .method t.span name.span (s.slice name.span) (ownerOf s around) t.parts
        ({ declarations := [method] } : Harvest) ++
          visitParts s { parent := some method.id, inFunction := true } .functionBody t.parts
      | none => Kotlin.visitAll s (contextOf s around) t.parts) = yieldOf y s around t := by
  have hpasses : ∀ u, passesOver s u (t :: around) = (hasName t && !(u.kind == .functionBody)) := by
    intro u
    rw [passesOver, hkind]
  have howns : owns s t = hasName t := by rw [owns, hkind]
  cases hname : ofKind? t.parts .name with
  | none =>
    have hnamed : hasName t = false := by rw [hasName, hname]; rfl
    have hself : own s ⟨t, around⟩ = {} := by simp only [own, hkind, hname]
    rw [← h.visitAll hseen (fun u => by rw [hpasses, hnamed]; rfl) (howns.trans hnamed), hself,
      y.of_empty]
    rfl
  | some name =>
    have hnamed : hasName t = true := by rw [hasName, hname]; rfl
    have hcontext : contextOf s (t :: around) =
        { parent := some (s.identify t.span), inFunction := true } := by
      rw [contextOf, inFunction, hkind, hnamed, ownerOf, List.find?_cons, howns, hnamed]
      rfl
    rw [yieldOf, gather_eq (p := fun u => u.kind == .functionBody) hseen
      (fun u => by rw [hpasses, hnamed]; rfl) fun u hu _ => h u hu, hcontext]
    simp only [own, hkind, hname, y.of_append]
    congr 1
    exact yield_parts y t.parts fun _ _ _ => rfl

/-- Of a field only its value or its delegate is visited; a local variable is visited whole. -/
theorem property (h : PartsYield y s around t) (hseen : hidden (passesOver s) t around = false)
    (hkind : t.kind = .property) (ht : t.Placed) :
    y.of (match if inFunction s around then none
      else fieldOf? s (ownerOf s around) t.span t.parts with
      | some field =>
        ({ declarations := [field] } : Harvest) ++
          (if (valueOf? s t.parts).isSome then visitValue s (contextOf s around) false t.parts
            else visitParts s (contextOf s around) .delegate t.parts)
      | none => Kotlin.visitAll s (contextOf s around) t.parts) = yieldOf y s around t := by
  have hpasses : ∀ u, passesOver s u (t :: around) = (isField s t around && !isValue s t u) := by
    intro u
    rw [passesOver, hkind]
  have howns : owns s t = false := by rw [owns, hkind]
  have hfield := isField_eq (s := s) t around (ownerOf s around)
  cases hdeclared : (if inFunction s around then none else
      fieldOf? s (ownerOf s around) t.span t.parts) with
  | none =>
    have hself : own s ⟨t, around⟩ = {} := by simp only [own, hkind, hdeclared]
    rw [hdeclared] at hfield
    rw [← h.visitAll hseen (fun u => by rw [hpasses, hfield]; rfl) howns, hself, y.of_empty]
    rfl
  | some field =>
    have hself : own s ⟨t, around⟩ = { declarations := [field] } := by
      simp only [own, hkind, hdeclared]
    rw [hdeclared] at hfield
    rw [yieldOf, gather_eq (p := isValue s t) hseen (fun u => by rw [hpasses, hfield]; rfl)
      fun u hu _ => h u hu, hself, contextOf_cons_of_not_owns around howns, ← yield_field y ht,
        ← y.of_append]

end PartsYield

/-- **What a node yields is what its visible nodes yield by themselves**, in their order. -/
theorem yield_visit {t : Node} (ht : t.Placed) {around : List Node}
    (hseen : hidden (passesOver s) t around = false) :
    y.of (visit s (contextOf s around) t) = yieldOf y s around t := by
  induction ht generalizing around with
  | @node kind role span parts hspans hplaced ih =>
    have hparts : PartsYield y s around (.node kind role span parts) := fun u hu => ih u hu
    cases kind with
    | packageClause =>
      rw [yieldOf, gather_eq_none hseen fun _ => rfl]
      rfl
    | importClause =>
      rw [yieldOf, gather_eq_none hseen fun _ => rfl]
      rfl
    | classDeclaration | objectDeclaration | companion =>
      exact hparts.type hseen (by simp [Tree.kind])
    | property => exact hparts.property hseen rfl (.node hspans hplaced)
    | function => exact hparts.function hseen rfl
    | call =>
      rw [visit, y.of_append]
      exact hparts.visitAll hseen (fun _ => rfl) rfl
    | _ =>
      rw [← hparts.visitAll hseen (fun _ => rfl) rfl]
      simp only [visit, own, Tree.kind, Tree.parts, y.of_empty, List.nil_append]

/-- What a file yields is what the visible nodes of its tree yield by themselves. -/
theorem yield_visitForest {lo hi : Nat} {forest : List Node} (h : PlacedIn lo hi forest) :
    y.of (visitAll s {} forest) = forest.flatMap (yieldOf y s []) := by
  rw [yield_visitAll]
  refine List.flatMap_congr fun t ht => ?_
  have hseen : hidden (passesOver s) t [] = false := rfl
  exact yield_visit y (h.placed t ht) hseen

end AdLint.Kotlin
