import AdLint.Check.RestrictedApi
import AdLint.Proofs.EnclosingChain
import AdLint.Proofs.ImportedNames

/-!
# Calls without a receiver

A call that is written without a receiver may be a call of a static member that the file imports.
Whether it is one of a restricted class is read off the imports of the file alone: the first import
that binds the name decides, and where there is none, a wildcard import of the members of the class
is enough. Of the declarations only the types around the call are asked, for their names. So a
method that the class around the call declares does not stand before the import, although a call of
its name is a call of this method.

## Main results

* `Project.Distinct.filter_enclosing`: the types around a location come from the types of the record
* `Project.isSome_resolveStatic?_iff`: which imports tie a name to the members of a class
* `RestrictedApi.isSome_finding?_iff`: which calls are reported
* `RestrictedApi.finding?_eq_of_types`: only files and types matter for a report
* `RestrictedApi.unqualified_call_reported_iff`: both, of calls without a receiver
-/

namespace AdLint

open Std

/-! ## The types around a location -/

/-- The order of declarations by the length of their ranges, longest first. -/
def Declaration.compareLength (a b : Declaration) : Ordering :=
  compare b.location.length a.location.length

instance : TransCmp Declaration.compareLength :=
  transCmp_on (fun m n : Nat => compare n m) fun d : Declaration => d.location.length

namespace Project

variable {p : Project} {l : Location}

/-- The types around a location are those of the outline of its file. -/
theorem mem_types_around_iff {sources : List (Path × String)} {o : Outline} {t : Declaration}
    (hpaths : sources.Pairwise fun a b => a.1.same b.1 = false) (ho : o ∈ outlines sources)
    (hl : l.file = o.file.path) :
    t ∈ (ofSources sources).1.types ∧ t.location.contains l = true ↔
      t ∈ o.declarations ∧ t.isType = true ∧ t.location.contains l = true := by
  rw [types, List.mem_filter, (distinct_ofSources hpaths).declarations_eq, and_assoc,
    ofSources_eq_ofOutlines]
  refine and_congr_left fun hcontains => ⟨fun ht => ?_, fun ht => List.mem_flatMap.mpr ⟨o, ho, ht⟩⟩
  refine mem_declarations_of_file (fun _ => wellPlaced_of_mem_outlines)
    (pairwise_outlines hpaths) ho ht ?_
  rw [← hl]
  exact (Location.contains_iff.mp hcontains.2).1

/-- The types around a location, as types of the record. -/
theorem Distinct.filter_enclosing (hp : p.Distinct) (l : Location) :
    (p.enclosing l).filter Declaration.isType =
      (((p.added.filter Declaration.isType).filter fun d => d.location.file.same l.file).filter
        fun d => d.location.contains l).mergeSort fun a b => (a.compareLength b).isLE := by
  have hle : (fun a b : Declaration => decide (b.location.length ≤ a.location.length)) =
      fun a b => (a.compareLength b).isLE := by
    funext a b
    rw [Bool.eq_iff_iff, decide_eq_true_iff, Declaration.compareLength, Nat.isLE_compare]
  -- sorting keeps the order of the types among themselves
  rw [enclosing, inFile, hp.current_filter, hle, filter_mergeSort]
  simp only [List.filter_filter]
  congr 2
  funext d
  simp only [Bool.and_comm, Bool.and_left_comm]

/-- A project without its fields and methods. -/
def typesOnly (p : Project) : Project := { p with added := p.added.filter Declaration.isType }

theorem filesAdded_typesOnly (p : Project) : p.typesOnly.filesAdded = p.filesAdded := rfl

theorem filter_added_typesOnly (p : Project) :
    p.typesOnly.added.filter Declaration.isType = p.added.filter Declaration.isType := by
  simp [typesOnly]

theorem Distinct.typesOnly (hp : p.Distinct) : p.typesOnly.Distinct := List.Pairwise.filter _ hp

/-! ## Imported members -/

/-- **The imports that tie a name to the static members of a class**: the first one that binds the
name, or if there is none, a wildcard import of all members. -/
theorem isSome_resolveStatic?_iff {file : Path} {context : SourceFile} {member qualified : String}
    (hfile : p.file? file = some context) :
    (p.resolveStatic? file member qualified).isSome ↔
      (∃ i, context.FirstImport member i ∧ i.path = qualified ++ "." ++ member) ∨
        (¬ ∃ i ∈ context.imports, i.Binds member) ∧ context.importsAll qualified = true := by
  rw [resolveStatic?, hfile, ← SourceFile.isSome_importOf?_iff]
  simp only [Option.bind_eq_bind, Option.bind_some, ← SourceFile.importOf?_eq_some_iff]
  cases context.importOf? member <;> simp

end Project

/-! ## Reported calls -/

namespace RestrictedApi

variable {api : RestrictedApi} {p q : Project} {call : Call}

/-- **A call is reported** if it can be tied to the restricted class and no type around it is
allowed to make it. -/
theorem isSome_finding?_iff :
    (api.finding? p call).isSome ↔ call.kind = .method ∧ (api.resolve? p call).isSome ∧
      ∀ t ∈ p.types, t.location.contains call.location = true → t.name ∉ api.allowed := by
  have hallowed : (((p.enclosing call.location).filter Declaration.isType).any
      fun d => api.allowed.contains d.name) = false ↔
        ∀ t ∈ p.types, t.location.contains call.location = true → t.name ∉ api.allowed := by
    simp only [List.any_eq_false, Project.mem_filter_enclosing, List.contains_iff_mem, and_imp]
  rw [← hallowed]
  by_cases hkind : call.kind = .method
  · cases hresolve : api.resolve? p call with
    | none => simp [finding?, hresolve]
    | some resolution =>
      simp only [finding?, hkind, hresolve, bne_self_eq_false, Bool.false_eq_true, if_false,
        Option.bind_eq_bind, Option.bind_some, Option.isSome_some, true_and]
      split
      · next hany => simp only [hany, Option.isSome_none, Bool.true_eq_false, Bool.false_eq_true]
      · next hany => simpa only [Option.isSome_some, true_iff, Bool.not_eq_true] using hany
  · simp [finding?, hkind]

/-- **Only files and types matter for a report.** -/
theorem finding?_eq_of_types (hp : p.Distinct) (hq : q.Distinct)
    (hfiles : q.filesAdded = p.filesAdded)
    (htypes : q.added.filter Declaration.isType = p.added.filter Declaration.isType)
    (hreceiver : call.receiver = none) : api.finding? q call = api.finding? p call := by
  have hresolve : api.resolve? q call = api.resolve? p call := by
    simp only [resolve?, hreceiver, Project.resolveStatic?, Project.file?, hfiles]
  rw [finding?, finding?, hresolve, hp.filter_enclosing, hq.filter_enclosing, htypes]

section Sources

variable {sources : List (Path × String)} {path : Path} {text : String} {o : Outline}

/-- A call of a source without a receiver is reported for what the outline of the source says. -/
theorem exists_finding_iff (hpaths : sources.Pairwise fun a b => a.1.same b.1 = false)
    (hsource : (path, text) ∈ sources) (houtline : outlineOf path text = .ok o)
    (hcall : call ∈ o.calls)
    (hkind : call.kind = .method) (hreceiver : call.receiver = none) :
    (∃ f ∈ api.findings (Project.ofSources sources).1,
      api.finding? (Project.ofSources sources).1 call = some f) ↔
      ((∃ i, o.file.FirstImport call.name i ∧ i.path = api.qualified ++ "." ++ call.name) ∨
        (¬ ∃ i ∈ o.file.imports, i.Binds call.name) ∧ o.file.importsAll api.qualified = true) ∧
      ∀ t ∈ o.declarations, t.isType = true → t.location.contains call.location = true →
        t.name ∉ api.allowed := by
  have ho := mem_outlines hsource houtline
  have hplace : call.location.file = o.file.path :=
    (wellPlaced_of_mem_outlines ho).file_of_call call hcall
  have hfile : (Project.ofSources sources).1.file? call.location.file = some o.file := by
    rw [Project.ofSources_eq_ofOutlines, hplace]
    exact Project.file?_ofOutlines (pairwise_outlines hpaths) ho
  have hmem : call ∈ (Project.ofSources sources).1.calls := by
    rw [Project.ofSources_eq_ofOutlines]
    exact List.mem_flatMap.mpr ⟨o, ho, hcall⟩
  have hreported : (∃ f ∈ api.findings (Project.ofSources sources).1,
      api.finding? (Project.ofSources sources).1 call = some f) ↔
        (api.finding? (Project.ofSources sources).1 call).isSome := by
    rw [Option.isSome_iff_exists]
    exact ⟨fun ⟨f, _, hf⟩ => ⟨f, hf⟩,
      fun ⟨f, hf⟩ => ⟨f, List.mem_filterMap.mpr ⟨call, hmem, hf⟩, hf⟩⟩
  rw [hreported, isSome_finding?_iff, resolve?, hreceiver]
  dsimp only
  rw [Project.isSome_resolveStatic?_iff hfile]
  simp only [hkind, true_and]
  refine and_congr_right fun _ => forall_congr' fun t => ?_
  rw [← and_imp, Project.mem_types_around_iff hpaths ho hplace, and_imp, and_imp]

/-- **What is reported about calls without a receiver.** Take such a call of a method in one of the
sources, of which no path is read twice. It is reported if and only if the imports of its file tie
its name to a member of the restricted class, and no type around it is allowed to make it. Fields
and methods play no part: in every project with the same files and types the report is the same. -/
theorem unqualified_call_reported_iff (hpaths : sources.Pairwise fun a b => a.1.same b.1 = false)
    (hsource : (path, text) ∈ sources) (houtline : outlineOf path text = .ok o)
    (hcall : call ∈ o.calls)
    (hkind : call.kind = .method) (hreceiver : call.receiver = none) (api : RestrictedApi) :
    let p := (Project.ofSources sources).1
    ((∃ f ∈ api.findings p, api.finding? p call = some f) ↔
        ((∃ i, o.file.FirstImport call.name i ∧ i.path = api.qualified ++ "." ++ call.name) ∨
          (¬ ∃ i ∈ o.file.imports, i.Binds call.name) ∧ o.file.importsAll api.qualified = true) ∧
        ∀ t ∈ o.declarations, t.isType = true → t.location.contains call.location = true →
          t.name ∉ api.allowed) ∧
      ∀ q : Project, q.Distinct → q.filesAdded = p.filesAdded →
        q.added.filter Declaration.isType = p.added.filter Declaration.isType →
        api.finding? q call = api.finding? p call := by
  refine ⟨exists_finding_iff hpaths hsource houtline hcall hkind hreceiver,
    fun q hq hfiles htypes => ?_⟩
  exact finding?_eq_of_types (Project.distinct_ofSources hpaths) hq hfiles htypes hreceiver

end Sources

end RestrictedApi

/-! ## Calls of methods that the class declares itself -/

/-- A call without a receiver, in a type that declares a method of its name. -/
def Outline.CallsOwnMethod (o : Outline) (call : Call) : Prop :=
  call.kind = .method ∧ call.receiver = none ∧
    ∃ t ∈ o.declarations, t.isType = true ∧ t.location.contains call.location = true ∧
      ∃ m ∈ o.declarations, (m.parent.any fun id => id.same t.id) = true ∧ m.kind = .method ∧
        m.name = call.name

instance (o : Outline) : DecidablePred o.CallsOwnMethod := fun call => by
  unfold Outline.CallsOwnMethod
  infer_instance

theorem exists_outline_of_any {path : Path} {text : String} {P : Outline → Prop} [DecidablePred P]
    (h : ((outlineOf path text).toOption.any fun o => decide (P o)) = true) :
    ∃ o, outlineOf path text = .ok o ∧ P o := by
  obtain ⟨o, ho, hP⟩ := (Option.any_eq_true _ _).mp h
  exact ⟨o, outlineOf_eq_ok ho, of_decide_eq_true hP⟩

namespace RestrictedApi

/-- A class that calls a method of its own, beside an import of all members of a
restricted class. -/
def ownGetter : Path × String :=
  (⟨"A.java"⟩,
    "import static android.os.SystemProperties.*; " ++
      "class A \x7b int get() \x7b return get(); \x7d \x7d")

theorem exists_outline_ownGetter : ∃ o, outlineOf ownGetter.1 ownGetter.2 = .ok o ∧
    o.file.importOf? "get" = none ∧ o.file.importsAll "android.os.SystemProperties" = true ∧
    o.file.importsAll "android.provider.DeviceConfig" = false ∧
    (∀ t ∈ o.declarations, t.isType = true → t.name = "A") ∧
    ∃ call ∈ o.calls, call.name = "get" ∧ o.CallsOwnMethod call :=
  exists_outline_of_any (by decide +kernel)

/-- The call is not reported for another class, and as it would be without the method. -/
theorem unqualified_call_reported_iff_ownGetter :
    let p := (Project.ofSources [ownGetter]).1
    ∃ o call, outlineOf ownGetter.1 ownGetter.2 = .ok o ∧ call ∈ o.calls ∧
      (¬ ∃ f ∈ (deviceConfig {}).findings p, (deviceConfig {}).finding? p call = some f) ∧
      (systemProperties {}).finding? p.typesOnly call = (systemProperties {}).finding? p call := by
  obtain ⟨o, houtline, himport, -, hother, -, call, hcall, hname, hkind, hreceiver, -⟩ :=
    exists_outline_ownGetter
  have hpaths : [ownGetter].Pairwise fun a b => a.1.same b.1 = false := List.pairwise_singleton _ _
  have hsource : (ownGetter.1, ownGetter.2) ∈ [ownGetter] := List.mem_singleton_self _
  have hreport := unqualified_call_reported_iff hpaths hsource houtline hcall hkind hreceiver
  refine ⟨o, call, houtline, hcall, fun hfound => ?_, ?_⟩
  · rcases ((hreport (deviceConfig {})).1.mp hfound).1 with ⟨i, hi, -⟩ | ⟨-, hall⟩
    · rw [← SourceFile.importOf?_eq_some_iff, hname, himport] at hi
      cases hi
    · exact Bool.false_ne_true (hother.symm.trans hall)
  · exact (hreport (systemProperties {})).2 _ (Project.distinct_ofSources hpaths).typesOnly
      (Project.filesAdded_typesOnly _) (Project.filter_added_typesOnly _)

/-- **A method of the class does not stand before an import.** The class declares the method that it
calls, and the call is reported as one of a restricted class. -/
theorem own_method_call_reported :
    let p := (Project.ofSources [ownGetter]).1
    ∃ o call, outlineOf ownGetter.1 ownGetter.2 = .ok o ∧ call ∈ o.calls ∧ o.CallsOwnMethod call ∧
      ∃ f ∈ (systemProperties {}).findings p, (systemProperties {}).finding? p call = some f := by
  obtain ⟨o, houtline, himport, hall, -, hnames, call, hcall, hname, hown⟩ :=
    exists_outline_ownGetter
  have hpaths : [ownGetter].Pairwise fun a b => a.1.same b.1 = false := List.pairwise_singleton _ _
  have hsource : (ownGetter.1, ownGetter.2) ∈ [ownGetter] := List.mem_singleton_self _
  refine ⟨o, call, houtline, hcall, hown,
    (exists_finding_iff hpaths hsource houtline hcall hown.1 hown.2.1).mpr ⟨.inr ⟨?_, hall⟩,
      fun t ht htype _ => ?_⟩⟩
  · rw [← SourceFile.isSome_importOf?_iff, hname, himport]
    exact Bool.false_ne_true
  · rw [hnames t ht htype]
    decide

end RestrictedApi

end AdLint
