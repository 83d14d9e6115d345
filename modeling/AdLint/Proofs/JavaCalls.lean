import AdLint.Proofs.JavaTree
import AdLint.Proofs.JavaVisit

/-!
# The calls of a Java file

The calls of a forest are those of its nodes that do not lie in what the visit passes over, one for
each and in the order of the text. A call has a name and arguments, so no part of it has the range
of the whole, and no two calls have the same range.

## Main definitions

* `Java.callNodes`: the calls of a tree that are visited
* `Java.Records`: a call is recorded for a node

## Main results

* `Java.records_callsAt`: one call is recorded for each call node
* `Java.records_visitAll`, `Java.nodup_ranges_visitAll`: the calls that are recorded for a forest
* `Java.calls_recorded_once`: the calls of a forest are recorded for its call nodes, once each
-/

namespace AdLint

namespace Java

open AdLint.Tree (EveryIn PlacedIn gather visibleIn)

/-- Whether a node is the call of a method or of a constructor. -/
def isCall (t : Node) : Bool := t.kind == .invocation || t.kind == .creation

/-- The calls in a forest that lie in nothing that is passed over, in the order of the text. -/
def callNodes (forest : List Node) : List Node :=
  ((visibleIn passesOver forest).map Occurrence.node).filter isCall

/-- The name that a node calls: that of a method as it is written, or that of the type of an object
without its package. -/
def calledName? (s : Source) (t : Node) : Option String :=
  match t.kind with
  | .invocation => (t.part? .name).map fun name => s.slice name.span
  | .creation => (t.part? .type).map fun type => TypeName.simple (Text.compact (s.slice type.span))
  | _ => none

/-- A call is recorded for a node: on the range of the node, and by the name that it calls. -/
structure Records (s : Source) (call : Call) (t : Node) : Prop where
  location : call.location = s.locate t.span t.span
  kind : call.kind = if t.kind = .creation then .constructor else .method
  name : calledName? s t = some call.name

variable {s : Source} {starts : Place → Prop}

/-- The calls that are recorded for a node itself. -/
def callsAt (s : Source) (t : Node) : List Call :=
  match t.kind with
  | .invocation => (invocationOf s t.span t.parts).calls
  | .creation => (creationOf s t.span t.parts).calls
  | _ => []

theorem calls_own (o : Occurrence Kind) : (own s o).calls = callsAt s o.node := by
  have himport : ∀ parts, (importOf s parts).calls = [] := by
    intro parts
    rw [importOf]
    split <;> rfl
  have hfield : ∀ parent whole parts span declarator,
      (fieldOf s parent whole parts span declarator).calls = [] := by
    intro parent whole parts span declarator
    rw [fieldOf]
    split <;> rfl
  rw [own, callsAt]
  cases o.node.kind with
  | importClause => exact himport _
  | typeDeclaration type =>
    dsimp only
    split <;> rfl
  | method =>
    dsimp only
    split <;> rfl
  | declarator =>
    dsimp only
    split
    · split
      · exact hfield _ _ _ _ _
      · rfl
    · rfl
  | _ => rfl

/-! ## The calls of a forest -/

/-- One call is recorded for each call node. -/
theorem records_callsAt {t : Node} (ht : t.Every (promise starts).Met) (hcall : isCall t = true) :
    ∃ call, callsAt s t = [call] ∧ Records s call t := by
  obtain ⟨kind, role, span, parts⟩ := t
  have hneeded := ht.here.needed
  rcases Bool.or_eq_true_iff.mp hcall with hkind | hkind
  · obtain rfl : kind = .invocation := beq_iff_eq.mp hkind
    obtain ⟨name, hname⟩ : ∃ name, inRole? parts .name = some name :=
      exists_inRole? (hneeded (.role .name) (by simp [Tree.kind]))
    have hcalled : calledName? s (.node .invocation role span parts) =
      (inRole? parts .name).map fun name => s.slice name.span := rfl
    have hat : callsAt s (.node .invocation role span parts) =
      (invocationOf s span parts).calls := rfl
    rw [hat, invocationOf, hname]
    exact ⟨_, rfl, rfl, rfl, by rw [hcalled, hname]; rfl⟩
  · obtain rfl : kind = .creation := beq_iff_eq.mp hkind
    obtain ⟨type, htype⟩ : ∃ type, inRole? parts .type = some type :=
      exists_inRole? (hneeded (.role .type) (by simp [Tree.kind]))
    have hcalled : calledName? s (.node .creation role span parts) =
      (inRole? parts .type).map fun type =>
        TypeName.simple (Text.compact (s.slice type.span)) := rfl
    have hat : callsAt s (.node .creation role span parts) = (creationOf s span parts).calls := rfl
    rw [hat, creationOf, htype]
    exact ⟨_, rfl, rfl, rfl, by rw [hcalled, htype]; rfl⟩

theorem callsAt_of_not_isCall {t : Node} (hcall : isCall t = false) : callsAt s t = [] := by
  obtain ⟨kind, role, span, parts⟩ := t
  cases kind <;> first | rfl | cases hcall

/-- A call has a name or a type, and arguments. -/
theorem branches_of_isCall {t : Node} (ht : t.Every (promise starts).Met)
    (hcall : isCall t = true) : t.Branches := by
  have hparts : ∃ role, role ≠ .arguments ∧ needs t.kind = [.role role, .role .arguments] := by
    rcases Bool.or_eq_true_iff.mp hcall with hkind | hkind
    · exact ⟨.name, by simp, by rw [beq_iff_eq.mp hkind]⟩
    · exact ⟨.type, by simp, by rw [beq_iff_eq.mp hkind]⟩
  obtain ⟨role, hrole, hneeds⟩ := hparts
  obtain ⟨u, hu, hurole⟩ := ht.here.needed (.role role) (by simp [hneeds])
  obtain ⟨v, hv, hvrole⟩ := ht.here.needed (.role .arguments) (by simp [hneeds])
  refine ⟨u, hu, v, hv, ?_⟩
  rintro rfl
  exact hrole (hurole.symm.trans hvrole)

/-- The calls of a forest are those recorded for its call nodes. -/
theorem calls_eq_flatMap_callNodes {forest : List Node} (h : EveryIn (promise starts).Met forest) :
    (visitAll s none forest).calls = (callNodes forest).flatMap (callsAt s) := by
  have htrees : (visitAll s none forest).calls =
      forest.flatMap (gather passesOver (fun o => callsAt s o.node) []) := by
    have hcalls :
        (fun o : Occurrence Kind => callsAt s o.node) = fun o => Harvest.called.of (own s o) :=
      funext fun o => (calls_own o).symm
    rw [hcalls]
    exact yield_visitForest Harvest.called h
  rw [htrees, Tree.flatMap_gather, callNodes,
    flatMap_filter_of_eq_nil fun t _ => callsAt_of_not_isCall, List.flatMap_map]

theorem everyIn_callNodes {forest : List Node} (h : EveryIn (promise starts).Met forest) :
    ∀ t ∈ callNodes forest, t.Every (promise starts).Met ∧ isCall t = true := by
  intro t ht
  obtain ⟨ht, hcall⟩ := List.mem_filter.mp ht
  obtain ⟨o, ho, rfl⟩ := List.mem_map.mp ht
  exact ⟨h.of_mem_occurrencesIn (List.mem_of_mem_filter ho), hcall⟩

/-- No two call nodes of a forest have the same range. -/
theorem nodup_callNodes {lo hi : Nat} {forest : List Node} (h : EveryIn (promise starts).Met forest)
    (hplaced : PlacedIn lo hi forest) :
    ((callNodes forest).map fun t => (t.span.start.byte, t.span.stop)).Nodup := by
  refine Tree.nodup_ranges hplaced fun t ht => ?_
  obtain ⟨ht, hcall⟩ := everyIn_callNodes h t ht
  exact branches_of_isCall ht hcall

/-- One call is recorded for each call node of a forest. -/
theorem records_visitAll {forest : List Node} (h : EveryIn (promise starts).Met forest) :
    List.Forall₂ (Records s) (visitAll s none forest).calls (callNodes forest) := by
  rw [calls_eq_flatMap_callNodes h]
  refine forall₂_flatMap fun t ht => ?_
  obtain ⟨ht, hcall⟩ := everyIn_callNodes h t ht
  exact records_callsAt ht hcall

/-- No two calls that are recorded have the same range. -/
theorem nodup_ranges_visitAll {lo hi : Nat} {forest : List Node}
    (h : EveryIn (promise starts).Met forest) (hplaced : PlacedIn lo hi forest) :
    ((visitAll s none forest).calls.map fun call =>
      (call.location.start, call.location.stop)).Nodup := by
  rw [map_eq_of_forall₂ (records_visitAll h) fun call t h => by rw [h.location, Source.locate]]
  exact nodup_callNodes h hplaced

/-! ## The calls of a file -/

theorem met_tree (text : String) : EveryIn (promise fun _ => True).Met (tree text) :=
  everyIn_tree fun _ _ => ⟨trivial, fun _ _ => trivial⟩

theorem records_outline (path : Path) (text : String) :
    List.Forall₂ (Records { path, text }) (outline path text).calls (callNodes (tree text)) :=
  records_visitAll (met_tree text)

theorem nodup_call_ranges (path : Path) (text : String) :
    ((outline path text).calls.map fun call =>
      (call.location.start, call.location.stop)).Nodup := by
  obtain ⟨hi, hplaced⟩ := placed_tree text
  exact nodup_ranges_visitAll (met_tree text) hplaced

theorem file_of_mem_calls {path : Path} {text : String} {call : Call}
    (h : call ∈ (outline path text).calls) : call.location.file = path := by
  have hfiles := map_eq_of_forall₂ (g := fun _ => path) (records_outline path text)
    fun call t h => show call.location.file = path by rw [h.location, Source.locate]
  obtain ⟨t, -, hpath⟩ := List.mem_map.mp (hfiles ▸ List.mem_map_of_mem h)
  exact hpath.symm

/-- **The calls that are recorded for a forest are those of its call nodes that lie in nothing that
is passed over**: one for each of them, in the order of the text, on the range of the call and on no
other call's. All that the forest has to have are the names and arguments of its calls, bodies that
are phrases in braces, and nodes that lie in one another or apart. The tree of every text is such a
forest, and its calls are those of the file. -/
theorem calls_recorded_once :
    (∀ (s : Source) (lo hi : Nat) (forest : List Node),
      EveryIn (promise fun _ => True).Met forest → PlacedIn lo hi forest →
        List.Forall₂ (Records s) (visitAll s none forest).calls (callNodes forest) ∧
          ((visitAll s none forest).calls.map fun call =>
            (call.location.start, call.location.stop)).Nodup) ∧
      ∀ (path : Path) (text : String),
        EveryIn (promise fun _ => True).Met (tree text) ∧ (∃ hi, PlacedIn 0 hi (tree text)) ∧
          List.Forall₂ (Records { path, text }) (outline path text).calls (callNodes (tree text)) ∧
            ((outline path text).calls.map fun call =>
              (call.location.start, call.location.stop)).Nodup := by
  constructor
  · intro s lo hi forest hmet hplaced
    exact ⟨records_visitAll hmet, nodup_ranges_visitAll hmet hplaced⟩
  · intro path text
    exact ⟨met_tree text, placed_tree text, records_outline path text, nodup_call_ranges path text⟩

/-- A class with calls in two values of one field, in an initializer, in the arguments of a call of
another constructor, in a method and in an anonymous class, and one in an annotation. -/
def scatteredCalls : Source where
  path := ⟨"A.java"⟩
  text := "class A extends B \x7b @N(a()) int x = b(), y = c(); \x7b d(); \x7d\n" ++
    "A() \x7b <String>super(e()); \x7d\n" ++
    "void f() \x7b g(() -> new H() \x7b int z = i(); \x7d); \x7d \x7d\n"

/-- Every call is recorded but the one in the annotation. -/
theorem calls_recorded_once_scattered :
    EveryIn (promise fun _ => True).Met (tree scatteredCalls.text) ∧
      (∃ hi, PlacedIn 0 hi (tree scatteredCalls.text)) ∧
      List.Forall₂ (Records scatteredCalls)
        (visitAll scatteredCalls none (tree scatteredCalls.text)).calls
        (callNodes (tree scatteredCalls.text)) ∧
      ((visitAll scatteredCalls none (tree scatteredCalls.text)).calls.map fun call =>
        (call.name, call.location.start, call.location.stop)) =
          [("b", 36, 39), ("c", 45, 48), ("d", 52, 55), ("e", 79, 82), ("g", 98, 131),
            ("H", 106, 130), ("i", 124, 127)] := by
  obtain ⟨hforest, htext⟩ := calls_recorded_once
  obtain ⟨hmet, ⟨hi, hplaced⟩, -⟩ := htext scatteredCalls.path scatteredCalls.text
  exact ⟨hmet, ⟨hi, hplaced⟩, (hforest scatteredCalls 0 hi _ hmet hplaced).1, by decide +kernel⟩

end Java

end AdLint
