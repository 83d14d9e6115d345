import AdLint.Proofs.Reannotation
import AdLint.Proofs.Selection

/-!
# Suppressing findings

The source can suppress a finding: by an annotation on a declaration around it that names its rule.
Writing one more such annotation on a declaration takes away the findings in the range of that
declaration whose rule the annotation names, and does nothing else.

The checks have to be blind to the new annotation for that. The only annotation that any of them
reads is the one that marks a database, so they find the same as long as what is looked up under its
name stays the same. What is left is the condition under which a finding is suppressed, and one more
annotation adds one more case to it.

## Main definitions

* `Project.annotate`: one more annotation on a declaration
* `Expr.Writes`: the text literals of an expression, those in arrays at any depth included
* `AnnotOf.Names`: the rules that an annotation names in its arguments

## Main results

* `foundBy_reannotate`: what all checks find depends on the database annotations only
* `isSuppressed_iff`: when a finding is suppressed
* `isSuppressed_annotate_iff`: what one more suppressing annotation suppresses
* `keptFindings_annotate`: what is left of the findings of an analysis
* `analyze_annotate`: an analysis after one more suppressing annotation
-/

namespace AdLint

open Project

variable (g : Declaration → List Annot) (p : Project)

/-! ## Checks that read no annotation -/

theorem JobService.services_reannotate :
    JobService.services (p.reannotate g) =
      (JobService.services p).map (Declaration.reannotate g) := by
  unfold JobService.services
  simp only [types_reannotate, List.filter_map, Function.comp_def, Declaration.reannotate_kind,
    isSubtypeOf_reannotate]

theorem JobService.findings_reannotate :
    JobService.findings (p.reannotate g) = JobService.findings p := by
  unfold JobService.findings
  simp only [JobService.services_reannotate, List.flatMap_map, fieldsOf_reannotate,
    List.filterMap_map]
  rfl

theorem FileNaming.findings_reannotate (s : FileNamingSettings) :
    FileNaming.findings s (p.reannotate g) = FileNaming.findings s p := by
  have hcall (written : String) (pattern : Pattern) :
      FileNaming.finding? (p.reannotate g) written pattern =
        FileNaming.finding? p written pattern := by
    funext call
    unfold FileNaming.finding?
    simp only [innermost?_reannotate, knownStart?_reannotate]
  unfold FileNaming.findings
  simp only [hcall]
  rfl

namespace RestrictedApi

variable (api : RestrictedApi)

theorem resolve?_reannotate (call : Call) :
    api.resolve? (p.reannotate g) call = api.resolve? p call := by
  unfold resolve?
  cases call.receiver with
  | some receiver => exact resolveType?_reannotate g p _ _ _
  | none => rfl

theorem ownerOf_reannotate (types : List Declaration) (call : Call) :
    ownerOf (types.map (Declaration.reannotate g)) call = ownerOf types call := by
  unfold ownerOf
  rw [List.getLast?_map]
  cases types.getLast? <;> rfl

theorem findings_reannotate : api.findings (p.reannotate g) = api.findings p := by
  have htypes (l : Location) : ((p.reannotate g).enclosing l).filter Declaration.isType =
      ((p.enclosing l).filter Declaration.isType).map (Declaration.reannotate g) := by
    rw [enclosing_reannotate, filter_map_reannotate g fun _ => rfl]
  have hcall : api.finding? (p.reannotate g) = api.finding? p := by
    funext call
    unfold finding?
    simp only [resolve?_reannotate, htypes, List.any_map, Function.comp_def,
      Declaration.reannotate_name, ownerOf_reannotate]
  unfold findings
  rw [hcall]
  rfl

end RestrictedApi

/-! ## The registration of databases -/

namespace Registration

theorem fieldsBelow_reannotate (n : Nat) (d : Declaration) :
    fieldsBelow (p.reannotate g) n (d.reannotate g) =
      (fieldsBelow p n d).map (Declaration.reannotate g) := by
  induction n generalizing d with
  | zero => exact fieldsOf_reannotate g p d
  | succ n ih =>
    unfold fieldsBelow
    rw [fieldsOf_reannotate, Declaration.reannotate_id, children_reannotate,
      filter_map_reannotate g fun _ => rfl, List.flatMap_map, List.map_append, List.map_flatMap]
    simp only [ih]

theorem typeOf?_reannotate (field : Declaration) :
    typeOf? (p.reannotate g) (field.reannotate g) = typeOf? p field := by
  unfold typeOf?
  simp only [Declaration.reannotate_typeName, Declaration.reannotate_location,
    qualifyType?_reannotate]

theorem collect_reannotate (className : String) :
    collect (p.reannotate g) className = collect p className := by
  have hlength : (p.reannotate g).added.length = p.added.length := List.length_map _
  have hclasses : ((p.reannotate g).types.filter fun d => d.name == className) =
      (p.types.filter fun d => d.name == className).map (Declaration.reannotate g) := by
    rw [types_reannotate, filter_map_reannotate g fun _ => rfl]
  unfold collect
  simp only [hclasses, hlength, List.map_map, List.flatMap_map, fieldsBelow_reannotate,
    ← List.map_flatMap, List.filterMap_map, Function.comp_def, typeOf?_reannotate,
    Declaration.reannotate_name]

end Registration

namespace RoomScan

variable (room : RoomSettings)

theorem tracked_reannotate :
    tracked (p.reannotate g) room = (tracked p room).map (Declaration.reannotate g) := by
  unfold tracked
  simp only [declarations_reannotate, List.filter_map, Function.comp_def,
    Declaration.reannotate_kind, isSubtypeOf_reannotate]

theorem earliest?_reannotate (ds : List Declaration) :
    earliest? (ds.map (Declaration.reannotate g)) =
      (earliest? ds).map (Declaration.reannotate g) := by
  induction ds with
  | nil => rfl
  | cons d ds ih =>
    rw [List.map_cons, earliest?, ih, earliest?]
    cases earliest? ds with
    | none => rfl
    | some e =>
      simp only [Option.map_some, Declaration.reannotate_location,
        apply_ite (Declaration.reannotate g)]
      rfl

theorem registrationMissing_reannotate (ds : List Declaration) :
    registrationMissing room (ds.map (Declaration.reannotate g)) = registrationMissing room ds := by
  unfold registrationMissing
  rw [earliest?_reannotate, List.length_map]
  cases earliest? ds <;> rfl

theorem isRegistered_reannotate (r : Registration) (d : Declaration) :
    isRegistered (p.reannotate g) r (d.reannotate g) = isRegistered p r d := by
  unfold isRegistered
  rw [Declaration.reannotate_id, find?_reannotate, Declaration.reannotate_name]
  cases p.find? d.id with
  | none => rfl
  | some e => exact congrArg _ (qualifiedName?_reannotate g p e)

theorem verified_reannotate (ds : List Declaration) :
    verified (p.reannotate g) room (ds.map (Declaration.reannotate g)) = verified p room ds := by
  unfold verified
  simp only [Registration.collect_reannotate, registrationMissing_reannotate, List.filter_map,
    List.map_map, Function.comp_def, isRegistered_reannotate]
  rfl

end RoomScan

/-! ## Databases and their annotations -/

namespace Database

variable (room : RoomSettings) (cls : Declaration)

theorem versionField?_reannotate :
    versionField? (p.reannotate g) room (cls.reannotate g) =
      (versionField? p room cls).map (Declaration.reannotate g) := by
  unfold versionField?
  rw [fieldsOf_reannotate, List.find?_map]
  rfl

theorem step?_reannotate (a : Annot) :
    step? (p.reannotate g) (cls.reannotate g) a = step? p cls a := by
  unfold step?
  rw [evaluateInt?_reannotate_some]

theorem steps?_reannotate (e : Expr) :
    steps? (p.reannotate g) room (cls.reannotate g) e = steps? p room cls e := by
  have hitem : itemStep? (p.reannotate g) room (cls.reannotate g) = itemStep? p room cls := by
    funext item
    unfold itemStep?
    simp only [step?_reannotate]
  unfold steps?
  rw [hitem]

theorem notExported_reannotate (a : Annot) :
    notExported (p.reannotate g) (cls.reannotate g) a = notExported p cls a := by
  unfold notExported
  simp only [evaluate?_reannotate_some]
  rfl

/-- The report on a class depends on no annotation but the one that marks it as a database. -/
theorem inspect_reannotate
    (h : (cls.reannotate g).annotationNamed? room.databaseAnnotation =
      cls.annotationNamed? room.databaseAnnotation) :
    inspect (p.reannotate g) room (cls.reannotate g) = inspect p room cls := by
  unfold inspect
  simp only [h, versionField?_reannotate, evaluateInt?_reannotate_some, notExported_reannotate,
    steps?_reannotate]
  cases versionField? p room cls <;> rfl

end Database

theorem RoomScan.run_reannotate (room : RoomSettings)
    (h : ∀ d : Declaration, (d.reannotate g).annotationNamed? room.databaseAnnotation =
      d.annotationNamed? room.databaseAnnotation) :
    (RoomScan.start (p.reannotate g) room).run = (RoomScan.start p room).run := by
  have hinspect (d : Declaration) := Database.inspect_reannotate g p room d (h d)
  simp only [run_start, tracked_reannotate, List.flatMap_map, hinspect, verified_reannotate,
    List.isEmpty_map]

/-- **The checks read no annotation but the one that marks a database.** -/
theorem foundBy_reannotate (s : Settings)
    (h : ∀ d : Declaration, (d.reannotate g).annotationNamed? s.room.databaseAnnotation =
      d.annotationNamed? s.room.databaseAnnotation) :
    foundBy s (p.reannotate g) = foundBy s p := by
  have hmanifest : ManifestProcess.findings s.manifest (p.reannotate g) =
      ManifestProcess.findings s.manifest p := rfl
  simp only [foundBy, Check.all, Check.room, Check.systemProperties, Check.deviceConfig,
    Check.jobService, Check.fileNaming, Check.manifestProcess, List.flatMap_cons, List.flatMap_nil,
    RoomScan.run_reannotate g p s.room h, RestrictedApi.findings_reannotate,
    JobService.findings_reannotate, FileNaming.findings_reannotate, hmanifest]

/-! ## The rules that an annotation names -/

namespace Expr

/-- A text is written in an expression: as its literal, or in an item of an array. -/
inductive Writes (word : String) : Expr → Prop
  | text : Writes word (.text word)
  | item {items : List Expr} {e : Expr} : e ∈ items → Writes word e → Writes word (.array items)

variable {word : String}

theorem mem_textsOf_iff {es : List Expr} : word ∈ textsOf es ↔ ∃ e ∈ es, word ∈ e.texts := by
  induction es with
  | nil => simp [textsOf]
  | cons e es ih => simp [textsOf, ih]

mutual

theorem writes_of_mem_texts : (e : Expr) → word ∈ e.texts → e.Writes word
  | .text value, h => by
    rw [texts, List.mem_singleton] at h
    exact h ▸ .text
  | .array items, h => by
    obtain ⟨e, he, hwrites⟩ := exists_writes_of_mem_textsOf items (by rwa [texts] at h)
    exact .item he hwrites

theorem exists_writes_of_mem_textsOf : (es : List Expr) → word ∈ textsOf es →
    ∃ e ∈ es, e.Writes word
  | [], h => by simp [textsOf] at h
  | e :: es, h => by
    rw [textsOf, List.mem_append] at h
    rcases h with h | h
    · exact ⟨e, List.mem_cons_self, writes_of_mem_texts e h⟩
    · obtain ⟨e', he', hwrites⟩ := exists_writes_of_mem_textsOf es h
      exact ⟨e', List.mem_cons_of_mem e he', hwrites⟩

end

theorem mem_texts_iff {e : Expr} : word ∈ e.texts ↔ e.Writes word := by
  refine ⟨writes_of_mem_texts e, fun h => ?_⟩
  induction h with
  | text => simp [texts]
  | item he _ ih =>
    rw [texts]
    exact mem_textsOf_iff.mpr ⟨_, he, ih⟩

end Expr

/-- A word names a rule: `all` and the code of the rule in any case of their letters, and the name
of the rule as it is. -/
def Rule.NamedBy (rule : Rule) (word : String) : Prop :=
  Text.lowerAscii word = Text.lowerAscii "all" ∨
    Text.lowerAscii word = Text.lowerAscii rule.code ∨ word = rule.name

/-- An annotation names a rule by a text written in one of its arguments. -/
def AnnotOf.Names (a : Annot) (rule : Rule) : Prop :=
  ∃ argument ∈ a.arguments, ∃ word, argument.value.Writes word ∧ rule.NamedBy word

theorem suppresses_iff {rule : Rule} {word : String} :
    suppresses rule word = true ↔ rule.NamedBy word := by
  simp only [suppresses, Text.sameIgnoringAsciiCase, Rule.NamedBy, Bool.or_eq_true, beq_iff_eq,
    or_assoc]

theorem AnnotOf.names_iff {a : Annot} {rule : Rule} :
    a.texts.any (suppresses rule) = true ↔ a.Names rule := by
  simp only [List.any_eq_true, suppresses_iff, AnnotOf.texts, Expr.mem_textsOf_iff, List.mem_map,
    Expr.mem_texts_iff, AnnotOf.Names]
  constructor
  · rintro ⟨word, ⟨_, ⟨argument, hargument, rfl⟩, hwrites⟩, hnamed⟩
    exact ⟨argument, hargument, word, hwrites, hnamed⟩
  · rintro ⟨argument, hargument, word, hwrites, hnamed⟩
    exact ⟨word, ⟨_, ⟨argument, hargument, rfl⟩, hwrites⟩, hnamed⟩

instance (a : Annot) (rule : Rule) : Decidable (a.Names rule) :=
  decidable_of_iff _ AnnotOf.names_iff

/-! ## When a finding is suppressed -/

theorem Location.contains_iff {outer inner : Location} :
    outer.contains inner = true ↔ outer.file.same inner.file = true ∧
      outer.start ≤ inner.start ∧ inner.stop ≤ outer.stop := by
  simp only [Location.contains, Bool.and_eq_true, decide_eq_true_eq, and_assoc]

/-- The declarations around a location are all those of the project whose range contains it. -/
theorem Project.mem_enclosing_iff {p : Project} {d : Declaration} {l : Location} :
    d ∈ p.enclosing l ↔ d ∈ p.declarations ∧ d.location.contains l = true := by
  rw [enclosing, List.mem_mergeSort, List.mem_filter, mem_declarations_iff]
  -- a declaration that contains a location is in its file, so it is its own entry in the record
  refine and_congr_left fun hcontains => ⟨find?_of_mem_current, fun hd => ?_⟩
  have hfile : d.location.file.same l.file = true := (Location.contains_iff.mp hcontains).1
  exact mem_current.mpr ⟨d, List.mem_filter.mpr ⟨mem_added_of_find? hd, hfile⟩, hd⟩

theorem isSuppressing_iff {a : Annot} :
    suppressingAnnotations.any a.named = true ↔ a.simpleName ∈ suppressingAnnotations := by
  -- the names in the list have no package, so each is its own simple name
  have hsimple : suppressingAnnotations.map TypeName.simple = suppressingAnnotations := by decide
  conv_rhs => rw [← hsimple]
  simp only [List.any_eq_true, AnnotOf.named, beq_iff_eq, List.mem_map]
  exact exists_congr fun _ => and_congr_right fun _ => eq_comm

/-- **A finding is suppressed** when a declaration around it has a suppressing annotation that names
its rule. -/
theorem isSuppressed_iff {p : Project} {f : Finding} :
    isSuppressed p f = true ↔
      ∃ d ∈ p.declarations, d.location.contains f.location = true ∧
        ∃ a ∈ d.annotations, a.simpleName ∈ suppressingAnnotations ∧ a.Names f.rule := by
  rw [isSuppressed, List.any_eq_true]
  refine exists_congr fun d => ?_
  rw [mem_enclosing_iff, List.any_eq_true, and_assoc]
  refine and_congr_right fun _ => and_congr_right fun _ => exists_congr fun a => ?_
  rw [List.mem_filter, isSuppressing_iff, AnnotOf.names_iff, and_assoc]

/-- Where nothing is annotated, nothing is suppressed. -/
theorem isSuppressed_of_unannotated {p : Project} (h : ∀ d ∈ p.added, d.annotations = [])
    (f : Finding) : isSuppressed p f = false := by
  rw [← Bool.not_eq_true, isSuppressed_iff]
  rintro ⟨d, hd, -, a, ha, -⟩
  rw [h d (mem_added_of_find? (find?_of_mem_declarations hd))] at ha
  cases ha

/-! ## One more annotation -/

/-- The project with one more annotation on the declaration with this identifier. -/
def Project.annotate (p : Project) (id : DeclarationId) (a : Annot) : Project :=
  { p with
    added := p.added.map fun e =>
      if e.id.same id then { e with annotations := e.annotations ++ [a] } else e }

/-- The annotations of a declaration after one more was written under an identifier. -/
def annotationsWith (id : DeclarationId) (a : Annot) (e : Declaration) : List Annot :=
  if e.id.same id then e.annotations ++ [a] else e.annotations

variable {p : Project} {d : Declaration} {a : Annot}

theorem Project.annotate_eq_reannotate (id : DeclarationId) :
    p.annotate id a = p.reannotate (annotationsWith id a) := by
  unfold annotate reannotate
  congr 2
  funext e
  unfold Declaration.reannotate annotationsWith
  split <;> rfl

/-- An annotation of another name is not what is looked up. -/
theorem annotationNamed?_annotationsWith {name : String} (h : a.simpleName ≠ TypeName.simple name)
    (id : DeclarationId) (e : Declaration) :
    (e.reannotate (annotationsWith id a)).annotationNamed? name = e.annotationNamed? name := by
  have hnamed : a.named name = false := by
    rw [AnnotOf.named, beq_eq_false_iff_ne]
    exact h
  unfold Declaration.annotationNamed? annotationsWith
  rw [Declaration.reannotate_annotations]
  split
  · -- the new annotation stands last and does not have the name
    rw [List.find?_append, List.find?_singleton, hnamed]
    simp
  · rfl

/-- One more suppressing annotation suppresses what its declaration contains and it names. -/
theorem isSuppressed_annotate_iff {f : Finding} (hd : d ∈ p.declarations)
    (ha : a.simpleName ∈ suppressingAnnotations) :
    isSuppressed (p.annotate d.id a) f = true ↔
      isSuppressed p f = true ∨ d.location.contains f.location = true ∧ a.Names f.rule := by
  rw [annotate_eq_reannotate, isSuppressed_iff, isSuppressed_iff, declarations_reannotate]
  constructor
  · rintro ⟨_, hmem, hcontains, b, hb, hsuppressing, hnames⟩
    obtain ⟨e, he, rfl⟩ := List.mem_map.mp hmem
    rw [Declaration.reannotate_annotations, annotationsWith] at hb
    split at hb
    case isTrue hsame =>
      -- a declaration of the project is settled by its identifier
      have hed : e = d := by
        have hfound := find?_of_mem_declarations he
        rw [find?_congr hsame, find?_of_mem_declarations hd] at hfound
        exact (Option.some.inj hfound).symm
      subst hed
      rcases List.mem_append.mp hb with hb | hb
      · exact .inl ⟨e, he, hcontains, b, hb, hsuppressing, hnames⟩
      · rw [List.mem_singleton.mp hb] at hnames
        exact .inr ⟨hcontains, hnames⟩
    case isFalse => exact .inl ⟨e, he, hcontains, b, hb, hsuppressing, hnames⟩
  · rintro (⟨e, he, hcontains, b, hb, hsuppressing, hnames⟩ | ⟨hcontains, hnames⟩)
    · refine ⟨_, List.mem_map_of_mem he, hcontains, b, ?_, hsuppressing, hnames⟩
      rw [Declaration.reannotate_annotations, annotationsWith]
      split
      · exact List.mem_append_left _ hb
      · exact hb
    · refine ⟨_, List.mem_map_of_mem hd, hcontains, a, ?_, ha, hnames⟩
      rw [Declaration.reannotate_annotations, annotationsWith,
        if_pos (DeclarationId.same_refl d.id)]
      exact List.mem_append_right _ (List.mem_singleton_self a)

theorem keptFindings_annotate {s : Settings} (hd : d ∈ p.declarations)
    (ha : a.simpleName ∈ suppressingAnnotations)
    (hroom : a.simpleName ≠ TypeName.simple s.room.databaseAnnotation) :
    keptFindings s (p.annotate d.id a) =
      (keptFindings s p).filter fun f =>
        ¬(d.location.contains f.location = true ∧ a.Names f.rule) := by
  have hfound : foundBy s (p.annotate d.id a) = foundBy s p := by
    rw [annotate_eq_reannotate]
    exact foundBy_reannotate _ p s (annotationNamed?_annotationsWith hroom d.id)
  have hsuppressed (f : Finding) : isSuppressed (p.annotate d.id a) f =
      (isSuppressed p f || decide (d.location.contains f.location = true ∧ a.Names f.rule)) := by
    rw [Bool.eq_iff_iff, Bool.or_eq_true, decide_eq_true_eq]
    exact isSuppressed_annotate_iff hd ha
  -- severities change neither the place nor the rule of a finding
  rw [keptFindings, keptFindings, hfound, List.filter_map, List.filter_filter]
  congr 2
  funext f
  rw [hsuppressed, Bool.not_or, ← Bool.and_assoc, Bool.and_comm, ← decide_not]
  rfl

/-- One more suppressing annotation on a declaration takes away the findings in the range of the
declaration whose rule the annotation names, and changes nothing else. -/
theorem analyze_annotate (s : Settings) (p : Project) (d : Declaration) (hd : d ∈ p.declarations)
    (a : Annot) (ha : a.simpleName ∈ ["SuppressLint", "Suppress", "SuppressWarnings"])
    (hroom : a.simpleName ≠ TypeName.simple s.room.databaseAnnotation) :
    analyze s (p.annotate d.id a) =
      (analyze s p).filter fun f =>
        ¬((d.location.file.same f.location.file ∧ d.location.start ≤ f.location.start ∧
            f.location.stop ≤ d.location.stop) ∧
          a.Names f.rule) := by
  rw [analyze_eq_mergeSort, analyze_eq_mergeSort, keptFindings_annotate hd ha hroom,
    filter_mergeSort]
  simp only [Location.contains_iff]

/-! A job service with two eager fields, the first of which gets an annotation that names the rule
in an array within an array and in small letters. -/

/-- A range of the file of the job service. -/
def syncRange (line start stop : Nat) : Location := ⟨⟨"src/Sync.java"⟩, line, 1, start, stop⟩

/-- A field of the job service. -/
def syncField (name : String) (line start stop : Nat) : Declaration :=
  { id := ⟨⟨"src/Sync.java"⟩, start, stop⟩, name, kind := .field
    location := syncRange line start stop, language := .java
    parent := some ⟨⟨"src/Sync.java"⟩, 0, 90⟩, initializer := some (.create "Queue") }

/-- The job service. -/
def syncProject : Project :=
  { added :=
      [{ id := ⟨⟨"src/Sync.java"⟩, 0, 90⟩, name := "Sync", kind := .classType
         location := syncRange 1 0 90, language := .java, superTypes := ["JobService"] },
        syncField "first" 2 10 40, syncField "second" 3 50 80] }

/-- The annotation of the first field. -/
def syncSuppression : Annot :=
  { name := "android.annotation.SuppressLint"
    arguments := [⟨none, .array [.text "unused", .array [.text "bc001"]], syncRange 2 11 20⟩]
    location := syncRange 2 10 20 }

theorem analyze_annotate_syncField :
    (foundBy {} syncProject).map (fun f => (f.rule, f.location.line)) =
        [(.eagerJobServiceField, 2), (.eagerJobServiceField, 3)] ∧
      syncSuppression.Names .eagerJobServiceField ∧ ¬syncSuppression.Names .foreignProcess ∧
      analyze {} (syncProject.annotate (syncField "first" 2 10 40).id syncSuppression) =
        (analyze {} syncProject).filter fun f =>
          ¬(((syncRange 2 10 40).file.same f.location.file ∧ 10 ≤ f.location.start ∧
              f.location.stop ≤ 40) ∧
            syncSuppression.Names f.rule) := by
  have hfield : syncField "first" 2 10 40 ∈ syncProject.declarations :=
    mem_declarations_iff.mpr rfl
  exact ⟨by decide +kernel, by decide, by decide,
    analyze_annotate {} syncProject _ hfield syncSuppression (by decide) (by decide)⟩

end AdLint
