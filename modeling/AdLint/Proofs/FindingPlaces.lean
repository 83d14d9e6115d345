import AdLint.Proofs.Marks
import AdLint.Proofs.Selection

/-!
# Where findings are reported

A finding is reported at the thing that it is about: a call, a field, a component of a manifest, or
a database. A database is reported where it is declared if it lacks something as a whole, and
otherwise where it is annotated, and there is at most one finding about it for each rule.

## Main definitions

* `Database.ReportedAt`: a finding is where a class is declared or annotated, depending on its rule

## Main results

* `Database.exists_pieces_inspect`: a database is reported at most once for each rule
* `RestrictedApi.location_of_finding?`, `FileNaming.location_of_finding?`: findings about calls
* `JobService.location_of_finding?`, `ManifestProcess.location_of_finding?`: findings about fields
  and components
-/

namespace AdLint

/-! ## Databases -/

namespace Database

variable {p : Project} {room : RoomSettings} {cls : Declaration}

theorem mem_of_argument? {a : Annot} {name : String} {argument : Argument}
    (h : a.argument? name = some argument) : argument ∈ a.arguments := by
  rcases Option.or_eq_some_iff.mp h with h | ⟨-, h⟩
  · exact List.mem_of_find?_eq_some h
  · split at h
    · exact List.mem_of_mem_filter (List.mem_of_mem_head? h)
    · cases h

/-- The rules that a database breaks as a whole, so that they are reported where it is declared. -/
def ownRules : List Rule := [.databaseUnannotated, .versionFieldMissing]

/-- A finding is reported where a class is declared or where it is annotated, depending on its
rule. -/
inductive ReportedAt (cls : Declaration) (f : Finding) : Prop
  | declared (hrule : f.rule ∈ ownRules) (hlocation : f.location = cls.location)
  | annotated (hrule : f.rule ∉ ownRules) (hlocation : cls.AnnotatedAt f.location)

theorem reportedAt_unannotated {a : Option Annot} {f : Finding} (hf : f ∈ unannotated cls a) :
    ReportedAt cls f := by
  unfold unannotated at hf
  split at hf
  · rw [List.mem_singleton.mp hf]
    exact .declared (show Rule.databaseUnannotated ∈ ownRules by decide) rfl
  · cases hf

theorem reportedAt_fieldMissing {field : Option Declaration} {f : Finding}
    (hf : f ∈ fieldMissing room cls field) : ReportedAt cls f := by
  unfold fieldMissing at hf
  split at hf
  · rw [List.mem_singleton.mp hf]
    exact .declared (show Rule.versionFieldMissing ∈ ownRules by decide) rfl
  · cases hf

section Annotated

variable {a : Annot} (htype : cls.isType = true) (ha : a ∈ cls.annotations)

include htype ha

theorem reportedAt_notExported {f : Finding} (hf : f ∈ notExported p cls a) : ReportedAt cls f := by
  unfold notExported at hf
  split at hf
  · next argument hargument =>
    split at hf
    · rw [List.mem_singleton.mp hf]
      exact .annotated (show Rule.schemaNotExported ∉ ownRules by decide)
        (.argument htype ha (mem_of_argument? hargument))
    · cases hf
  · cases hf

theorem reportedAt_disagreeing {name : String} {annotated field : Option Int} {f : Finding}
    (hf : f ∈ disagreeing room cls (a.argument? name) annotated field) : ReportedAt cls f := by
  unfold disagreeing at hf
  split at hf
  · next argument _ _ hargument =>
    split at hf
    · rw [List.mem_singleton.mp hf]
      exact .annotated (show Rule.versionsDisagree ∉ ownRules by decide)
        (.argument htype ha (mem_of_argument? hargument))
    · cases hf
  · cases hf

theorem reportedAt_undeclared {target : Int} {f : Finding} (hf : f ∈ undeclared cls a target) :
    ReportedAt cls f := by
  unfold undeclared at hf
  split at hf
  · rw [List.mem_singleton.mp hf]
    exact .annotated (show Rule.migrationsMissing ∉ ownRules by decide) (.annot htype ha)
  · cases hf

theorem reportedAt_broken {argument : Argument} (hargument : argument ∈ a.arguments)
    {steps : Option (List MigrationStep)} {target : Int} {f : Finding}
    (hf : f ∈ broken cls argument steps target) : ReportedAt cls f := by
  unfold broken at hf
  split at hf
  · rw [List.mem_singleton.mp hf]
    exact .annotated (show Rule.migrationPathBroken ∉ ownRules by decide)
      (.argument htype ha hargument)
  · cases hf

end Annotated

/-- What the migrations of an annotated class add to the report on it. -/
theorem exists_inspect_annotated {a : Annot} (htype : cls.isType = true)
    (ha : cls.annotationNamed? room.databaseAnnotation = some a) :
    ∃ annotated field rule found, rule ∈ [Rule.migrationsMissing, .migrationPathBroken] ∧
      Sole rule found ∧ (∀ f ∈ found, ReportedAt cls f) ∧
      (inspect p room cls).findings =
        unannotated cls (some a) ++ fieldMissing room cls (versionField? p room cls) ++
          notExported p cls a ++ disagreeing room cls (a.argument? "version") annotated field ++
            found := by
  have hmem : a ∈ cls.annotations := List.mem_of_find?_eq_some ha
  unfold inspect
  simp only [ha]
  split
  · exact ⟨_, _, .migrationsMissing, [], by simp, .none, by simp, (List.append_nil _).symm⟩
  · exact ⟨_, _, .migrationsMissing, _, by simp, sole_undeclared _ _,
      fun f => reportedAt_undeclared htype hmem, rfl⟩
  · next hargument =>
    exact ⟨_, _, .migrationPathBroken, _, by simp, sole_broken _ _ _,
      fun f => reportedAt_broken htype hmem (mem_of_argument? hargument), rfl⟩

/-- **A database is reported at most once for each rule**, where it is declared or annotated. -/
theorem exists_pieces_inspect (p : Project) (room : RoomSettings) (htype : cls.isType = true) :
    ∃ pieces : List (Rule × List Finding),
      (inspect p room cls).findings = pieces.flatMap Prod.snd ∧ (pieces.map Prod.fst).Nodup ∧
        ∀ piece ∈ pieces, Sole piece.1 piece.2 ∧ ∀ f ∈ piece.2, ReportedAt cls f := by
  -- these two are looked for whether there is an annotation or not
  have hown : ∀ a?, ∀ piece ∈ [(Rule.databaseUnannotated, unannotated cls a?),
      (.versionFieldMissing, fieldMissing room cls (versionField? p room cls))],
      Sole piece.1 piece.2 ∧ ∀ f ∈ piece.2, ReportedAt cls f := by
    intro a?
    simp only [List.forall_mem_cons, List.not_mem_nil, false_implies, implies_true, and_true]
    exact ⟨⟨sole_unannotated a?, fun f => reportedAt_unannotated⟩,
      sole_fieldMissing _, fun f => reportedAt_fieldMissing⟩
  cases ha : cls.annotationNamed? room.databaseAnnotation with
  | none =>
    refine ⟨_, ?_, ?_, hown none⟩
    · simp [inspect, ha]
    · simp
  | some a =>
    have hmem : a ∈ cls.annotations := List.mem_of_find?_eq_some ha
    obtain ⟨annotated, field, rule, found, hrule, hsole, hfound, hfindings⟩ :=
      exists_inspect_annotated (p := p) htype ha
    refine ⟨[(.databaseUnannotated, unannotated cls (some a)),
      (.versionFieldMissing, fieldMissing room cls (versionField? p room cls)),
      (.schemaNotExported, notExported p cls a),
      (.versionsDisagree, disagreeing room cls (a.argument? "version") annotated field),
      (rule, found)], ?_, ?_, ?_⟩
    · rw [hfindings]
      simp
    · simp only [List.mem_cons, List.not_mem_nil, or_false] at hrule
      rcases hrule with rfl | rfl <;> simp
    · have howna := hown (some a)
      simp only [List.forall_mem_cons, List.not_mem_nil, false_implies, implies_true,
        and_true] at howna ⊢
      exact ⟨howna.1, howna.2, ⟨sole_notExported a, fun f => reportedAt_notExported htype hmem⟩,
        ⟨sole_disagreeing _ _ _, fun f => reportedAt_disagreeing htype hmem⟩, hsole, hfound⟩

theorem reportedAt_of_mem_inspect {f : Finding} (htype : cls.isType = true)
    (hf : f ∈ (inspect p room cls).findings) : ReportedAt cls f := by
  obtain ⟨pieces, hfindings, -, hpieces⟩ := exists_pieces_inspect p room htype
  rw [hfindings] at hf
  obtain ⟨piece, hpiece, hf⟩ := List.mem_flatMap.mp hf
  exact (hpieces piece hpiece).2 f hf

end Database

theorem RoomScan.isType_of_mem_tracked {p : Project} {room : RoomSettings} {d : Declaration}
    (hd : d ∈ tracked p room) : d.isType = true := by
  obtain ⟨-, hd⟩ := List.mem_filter.mp hd
  rw [Declaration.isType, beq_iff_eq.mp (Bool.and_eq_true_iff.mp hd).1]
  rfl

/-! ## Calls, fields and components -/

theorem RestrictedApi.location_of_finding? {api : RestrictedApi} {p : Project} {call : Call}
    {f : Finding} (h : api.finding? p call = some f) : f.location = call.location := by
  unfold finding? at h
  split at h
  · cases h
  · obtain ⟨resolution, -, h⟩ := Option.bind_eq_some_iff.mp h
    dsimp only at h
    split at h
    · cases h
    · cases h
      rfl

theorem FileNaming.location_of_finding? {p : Project} {written : String} {pattern : Pattern}
    {call : Call} {f : Finding} (h : finding? p written pattern call = some f) :
    f.location = call.location := by
  obtain ⟨argument, -, h⟩ := Option.bind_eq_some_iff.mp h
  obtain ⟨name, -, h⟩ := Option.bind_eq_some_iff.mp h
  split at h
  · cases h
  · cases h
    rfl

theorem JobService.location_of_finding? {service field : Declaration} {f : Finding}
    (h : finding? service field = some f) : f.location = field.location := by
  obtain ⟨value, -, h⟩ := Option.bind_eq_some_iff.mp h
  dsimp only at h
  split at h
  · cases h
  · cases h
    rfl

theorem ManifestProcess.location_of_finding? {s : ManifestSettings} {component : ManifestComponent}
    {f : Finding} (h : finding? s component = some f) : f.location = component.location := by
  obtain ⟨name, -, h⟩ := Option.bind_eq_some_iff.mp h
  dsimp only at h
  split at h
  · cases h
  · split at h
    · split at h
      · cases h
      · cases h
        rfl
    · cases h
      rfl

end AdLint
