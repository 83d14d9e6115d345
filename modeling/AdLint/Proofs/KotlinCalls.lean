import AdLint.Proofs.KotlinShape
import AdLint.Proofs.KotlinTree
import AdLint.Proofs.KotlinVisit

/-!
# The calls of a Kotlin file

The calls of a file are those of its tree that do not lie in what the visit passes over, one for
each and in the order of the text. What is passed over is more than names and types: the default
values of the parameters of a function and of a class, the arguments for the constructor of a
superclass, and an accessor on the line of a property can hold calls, and these are not recorded.

## Main definitions

* `Kotlin.callNodes`: the calls of a tree that are visited
* `Kotlin.Records`: a call is recorded for a node

## Main results

* `Kotlin.records_callsAt`: one call is recorded for each call node
* `Kotlin.calls_recorded_outside_heads`: the calls of a file are recorded for the call nodes of its
  tree, once each
-/

namespace AdLint.Kotlin

open AdLint.Tree (EveryIn PlacedIn gather visibleIn)

/-- Whether a node is a call of something that has a name, alone or after a dot. -/
def isCall (s : Source) (t : Node) : Bool := t.kind == .call && (callee? s t.parts).isSome

/-- The calls in a forest that lie in nothing that is passed over, in the order of the text. -/
def callNodes (s : Source) (forest : List Node) : List Node :=
  ((visibleIn (passesOver s) forest).map Occurrence.node).filter (isCall s)

/-- A call is recorded for a node: on the range of the node, and by the name that it calls. A call
of a capitalized name constructs an object. -/
structure Records (s : Source) (call : Call) (t : Node) : Prop where
  location : call.location = s.locate t.span t.span
  kind : call.kind = if isCapitalized call.name then .constructor else .method
  name : (callee? s t.parts).map Prod.snd = some call.name

variable {s : Source}

/-- The calls that are recorded for a node itself. -/
def callsAt (s : Source) (t : Node) : List Call :=
  if t.kind == .call then (callOf? s t.span t.parts).toList else []

theorem calls_own (o : Occurrence Kind) : (own s o).calls = callsAt s o.node := by
  have himport : ∀ parts, (importOf s parts).calls = [] := by
    intro parts
    rw [importOf]
    split <;> rfl
  rw [own, callsAt]
  cases o.node.kind with
  | importClause => exact himport _
  | classDeclaration | objectDeclaration | companion | property | function =>
    dsimp only
    split <;> rfl
  | _ => rfl

/-! ## The calls of a file -/

theorem records_callsAt {t : Node} (hcall : isCall s t = true) :
    ∃ call, callsAt s t = [call] ∧ Records s call t := by
  obtain ⟨hkind, hcallee⟩ := Bool.and_eq_true_iff.mp hcall
  obtain ⟨⟨receiver, name⟩, hcallee⟩ := Option.isSome_iff_exists.mp hcallee
  rw [callsAt, if_pos hkind, callOf?, hcallee]
  exact ⟨_, rfl, rfl, rfl, by rw [hcallee]; rfl⟩

theorem callsAt_of_not_isCall {t : Node} (hcall : isCall s t = false) : callsAt s t = [] := by
  rw [callsAt]
  split
  · next hkind =>
    rw [isCall, hkind, Bool.true_and] at hcall
    rw [callOf?, Option.isNone_iff_eq_none.mp (Option.isSome_eq_false_iff.mp hcall)]
    rfl
  · rfl

/-- A call has a part that names what is called, and one with the arguments. -/
theorem branches_of_isCall {t : Node} (ht : t.Every promise.Met) (hcall : isCall s t = true) :
    t.Branches := by
  obtain ⟨hkind, hcallee⟩ := Bool.and_eq_true_iff.mp hcall
  obtain ⟨suffix, hsuffix, hsuffixKind⟩ :=
    ht.here.needed (.kind .callSuffix) (by simp [beq_iff_eq.mp hkind])
  rw [callee?] at hcallee
  split at hcallee
  · next callee hfind =>
    refine ⟨callee, List.mem_of_find?_eq_some hfind, suffix, hsuffix, ?_⟩
    -- arguments by themselves name nothing that is called
    rintro rfl
    rw [show callee.kind = .callSuffix from hsuffixKind] at hcallee
    cases hcallee
  · cases hcallee

/-- The calls of a forest are those recorded for its call nodes. -/
theorem calls_eq_flatMap_callNodes {lo hi : Nat} {forest : List Node} (h : PlacedIn lo hi forest) :
    (Kotlin.visitAll s {} forest).calls = (callNodes s forest).flatMap (callsAt s) := by
  have htrees : (Kotlin.visitAll s {} forest).calls =
      forest.flatMap (gather (passesOver s) (fun o => callsAt s o.node) []) := by
    have hcalls :
        (fun o : Occurrence Kind => callsAt s o.node) = fun o => Harvest.called.of (own s o) :=
      funext fun o => (calls_own o).symm
    rw [hcalls]
    exact yield_visitForest Harvest.called h
  rw [htrees, Tree.flatMap_gather, callNodes,
    flatMap_filter_of_eq_nil fun t _ => callsAt_of_not_isCall, List.flatMap_map]

theorem everyIn_callNodes {forest : List Node} (h : EveryIn promise.Met forest) :
    ∀ t ∈ callNodes s forest, t.Every promise.Met ∧ isCall s t = true := by
  intro t ht
  obtain ⟨ht, hcall⟩ := List.mem_filter.mp ht
  obtain ⟨o, ho, rfl⟩ := List.mem_map.mp ht
  exact ⟨h.of_mem_occurrencesIn (List.mem_of_mem_filter ho), hcall⟩

/-- One call is recorded for each call node of a text. -/
theorem records_outline (path : Path) (text : String) :
    List.Forall₂ (Records { path, text }) (outline path text).calls
      (callNodes { path, text } (tree text)) := by
  obtain ⟨hi, hplaced⟩ := placed_tree text
  have hcalls : (outline path text).calls =
      (callNodes { path, text } (tree text)).flatMap (callsAt { path, text }) :=
    calls_eq_flatMap_callNodes hplaced
  rw [hcalls]
  exact forall₂_flatMap fun t ht => records_callsAt (everyIn_callNodes (everyIn_tree text) t ht).2

/-- No two calls of a file have the same range. -/
theorem nodup_call_ranges (path : Path) (text : String) :
    ((outline path text).calls.map fun call =>
      (call.location.start, call.location.stop)).Nodup := by
  obtain ⟨hi, hplaced⟩ := placed_tree text
  rw [map_eq_of_forall₂ (records_outline path text)
    fun call t h => by rw [h.location, Source.locate]]
  refine Tree.nodup_ranges hplaced fun t ht => ?_
  obtain ⟨ht, hcall⟩ := everyIn_callNodes (everyIn_tree text) t ht
  exact branches_of_isCall ht hcall

theorem file_of_mem_calls {path : Path} {text : String} {call : Call}
    (h : call ∈ (outline path text).calls) : call.location.file = path := by
  have hfiles := map_eq_of_forall₂ (g := fun _ => path) (records_outline path text)
    fun call t h => show call.location.file = path by rw [h.location, Source.locate]
  obtain ⟨t, -, hpath⟩ := List.mem_map.mp (hfiles ▸ List.mem_map_of_mem h)
  exact hpath.symm

/-- **The calls of a Kotlin file are those of its tree that lie in nothing that is passed over**:
one for each of them, in the order of the text, on the range of the call and on no other call's. -/
theorem calls_recorded_outside_heads (path : Path) (text : String) :
    List.Forall₂ (Records { path, text }) (outline path text).calls
        (callNodes { path, text } (tree text)) ∧
      ((outline path text).calls.map fun call => (call.location.start, call.location.stop)).Nodup :=
  ⟨records_outline path text, nodup_call_ranges path text⟩

/-- A function whose parameter has a default value that is a call. -/
def defaultValueSource : Source := { path := ⟨"A.kt"⟩, text := "fun f(x: Int = g()) \x7b\n\x7d\n" }

/-- **Not every call of a file is recorded.** The default value of a parameter is run when the
function is called without an argument for it, but it lies in the head of the function. -/
theorem default_value_call_not_recorded :
    (outline defaultValueSource.path defaultValueSource.text).calls = [] ∧
      ∃ o ∈ Tree.occurrencesIn [] (tree defaultValueSource.text),
        isCall defaultValueSource o.node = true :=
  ⟨by decide +kernel, List.any_eq_true.mp (by decide +kernel)⟩

end AdLint.Kotlin
