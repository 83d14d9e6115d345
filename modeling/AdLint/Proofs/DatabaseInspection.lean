import AdLint.Proofs.Evaluation
import AdLint.Proofs.MigrationChain
import AdLint.Proofs.RoomScan

/-!
# The inspection of a database

The report on a database class is put together from six checks, and each of them adds a finding or
nothing. What a class lacks as a whole is looked for first. The other checks need the annotation,
and those of the migrations also a version to reach, which is that of the version field if it is
known and that of the annotation otherwise. The declared migrations are judged only if all of them
are known, so there is never a verdict on a part of them.

## Main definitions

* `Database.brokenRules`: the rules that a class is reported for
* `Database.FieldVersion`, `Database.AnnotatedVersion`, `Database.TargetVersion`: the versions of a
  class
* `Database.DeclaresSteps`: the migrations that an argument declares, all of them known

## Main results

* `Database.findings_inspect`: the report, check by check
* `Database.mem_brokenRules_iff`: when a rule is reported
* `Database.brokenRules_exact`: the same rule by rule, with what the class declares
-/

namespace AdLint

/-! ## What is declared -/

theorem Project.evaluateInt?_eq_some_iff {p : Project} {scope : Option Declaration}
    {e : Expr} {n : Int} :
    p.evaluateInt? scope e = some n ↔ p.evaluate? scope e = some (.int n) := by
  rw [evaluateInt?, Option.bind_eq_some_iff]
  constructor
  · rintro ⟨c, hc, hn⟩
    cases c with
    | int m =>
      cases hn
      exact hc
    | _ => cases hn
  · intro h
    exact ⟨.int n, h, rfl⟩

theorem Sole.map_rule_sublist {rule : Rule} {fs : List Finding} (h : Sole rule fs) :
    (fs.map Finding.rule).Sublist [rule] := by
  cases h with
  | none => exact List.nil_sublist _
  | one hrule => rw [List.map_singleton, hrule]

namespace Database

variable {p : Project} {room : RoomSettings} {cls : Declaration} {a : Annot} {rule : Rule}

/-- A field of a class, in its body or in a companion object of it. -/
def HasField (p : Project) (cls f : Declaration) : Prop :=
  f.kind = .field ∧ (f ∈ p.children cls.id ∨
    ∃ companion ∈ p.children cls.id, companion.kind = .companionObject ∧
      f ∈ p.children companion.id)

theorem mem_fieldsOf_iff {f : Declaration} : f ∈ p.fieldsOf cls ↔ HasField p cls f := by
  rw [Project.fieldsOf, List.mem_flatMap, HasField]
  constructor
  · rintro ⟨child, hchild, hf⟩
    split at hf
    · next hkind =>
      obtain rfl := List.mem_singleton.mp hf
      exact ⟨hkind, .inl hchild⟩
    · next hkind =>
      obtain ⟨hf, hfield⟩ := List.mem_filter.mp hf
      exact ⟨beq_iff_eq.mp hfield, .inr ⟨child, hchild, hkind, hf⟩⟩
    · cases hf
  · rintro ⟨hkind, hf | ⟨companion, hcompanion, hobject, hf⟩⟩
    · refine ⟨f, hf, ?_⟩
      rw [hkind]
      exact List.mem_singleton_self f
    · refine ⟨companion, hcompanion, ?_⟩
      rw [hobject]
      exact List.mem_filter.mpr ⟨hf, beq_iff_eq.mpr hkind⟩

/-- The version field is known to hold this version. -/
def FieldVersion (p : Project) (room : RoomSettings) (cls : Declaration) (n : Int) : Prop :=
  ∃ f e, versionField? p room cls = some f ∧ f.initializer = some e ∧
    p.evaluate? (some cls) e = some (.int n)

/-- The annotation is known to state this version. -/
def AnnotatedVersion (p : Project) (cls : Declaration) (a : Annot) (n : Int) : Prop :=
  ∃ argument, a.argument? "version" = some argument ∧
    p.evaluate? (some cls) argument.value = some (.int n)

/-- The version that the migrations must reach: that of the field, or that of the annotation if the
one of the field is not known. -/
def TargetVersion (p : Project) (room : RoomSettings) (cls : Declaration) (a : Annot) (n : Int) :
    Prop :=
  FieldVersion p room cls n ∨ (∀ m, ¬ FieldVersion p room cls m) ∧ AnnotatedVersion p cls a n

/-- The annotation asks not to export the schema. -/
def ExportsNoSchema (p : Project) (cls : Declaration) (a : Annot) : Prop :=
  ∃ argument, a.argument? "exportSchema" = some argument ∧
    p.evaluate? (some cls) argument.value = some (.truth false)

/-- An annotation is known to declare a migration, with two operands that are named or stand in
order. -/
def DeclaresStep (p : Project) (cls : Declaration) (a : Annot) (step : MigrationStep) : Prop :=
  ∃ source target, a.argumentAt? "from" 0 = some source ∧ a.argumentAt? "to" 1 = some target ∧
    p.evaluate? (some cls) source.value = some (.int step.source) ∧
    p.evaluate? (some cls) target.value = some (.int step.target)

/-- An item of the list of migrations is known to declare one. -/
def ItemDeclares (p : Project) (room : RoomSettings) (cls : Declaration) (item : Expr)
    (step : MigrationStep) : Prop :=
  ∃ a, item = .annot a ∧ a.named room.migrationAnnotation = true ∧ DeclaresStep p cls a step

/-- The migrations that an argument declares: an array of them or a single one, all of them
known. -/
inductive DeclaresSteps (p : Project) (room : RoomSettings) (cls : Declaration) :
    Expr → List MigrationStep → Prop
  | array {items : List Expr} {steps : List MigrationStep}
      (h : List.Forall₂ (ItemDeclares p room cls) items steps) :
      DeclaresSteps p room cls (.array items) steps
  | single {a : Annot} {step : MigrationStep} (h : ItemDeclares p room cls (.annot a) step) :
      DeclaresSteps p room cls (.annot a) [step]

theorem step?_eq_some_iff {step : MigrationStep} :
    step? p cls a = some step ↔ DeclaresStep p cls a step := by
  simp only [step?, DeclaresStep, Option.bind_eq_bind, Option.bind_eq_some_iff,
    Project.evaluateInt?_eq_some_iff, Option.some.injEq]
  constructor
  · rintro ⟨source, hsource, m, hm, target, htarget, n, hn, rfl⟩
    exact ⟨source, target, hsource, htarget, hm, hn⟩
  · rintro ⟨source, target, hsource, htarget, hm, hn⟩
    exact ⟨source, hsource, _, hm, target, htarget, _, hn, rfl⟩

theorem itemStep?_eq_some_iff {item : Expr} {step : MigrationStep} :
    itemStep? p room cls item = some step ↔ ItemDeclares p room cls item step := by
  unfold ItemDeclares
  cases item with
  | annot a =>
    simp only [itemStep?, Option.ite_none_right_eq_some, step?_eq_some_iff, Expr.annot.injEq]
    exact ⟨fun h => ⟨a, rfl, h⟩, fun ⟨_, heq, h⟩ => heq ▸ h⟩
  | _ => simp [itemStep?]

/-- **Migrations are found if and only if all of them are known.** -/
theorem steps?_eq_some_iff {e : Expr} {steps : List MigrationStep} :
    steps? p room cls e = some steps ↔ DeclaresSteps p room cls e steps := by
  cases e with
  | array items =>
    simp only [steps?, mapM_eq_some_iff, itemStep?_eq_some_iff]
    constructor
    · exact .array
    · intro h
      cases h with
      | array h => exact h
  | annot a =>
    simp only [steps?, mapM_eq_some_iff, itemStep?_eq_some_iff]
    constructor
    · rintro (_ | ⟨hstep, hnil⟩)
      cases hnil
      exact .single hstep
    · intro h
      cases h with
      | single h => exact .cons h .nil
  | _ =>
    simp only [steps?, reduceCtorEq, false_iff]
    intro h
    cases h

/-! ## The checks -/

/-- The version of the version field, if it is known. -/
def fieldVersion? (p : Project) (room : RoomSettings) (cls : Declaration) : Option Int :=
  ((versionField? p room cls).bind fun f => f.initializer).bind (p.evaluateInt? (some cls))

/-- The version of the annotation, if it is known. -/
def annotatedVersion? (p : Project) (cls : Declaration) (a : Annot) : Option Int :=
  (a.argument? "version").bind fun argument => p.evaluateInt? (some cls) argument.value

/-- What is found about the migrations of an annotated class. -/
def migrationFindings (p : Project) (room : RoomSettings) (cls : Declaration) (a : Annot) :
    List Finding :=
  match (fieldVersion? p room cls).or (annotatedVersion? p cls a), a.argument? "autoMigrations" with
  | none, _ => []
  | some target, none => undeclared cls a target
  | some target, some argument => broken cls argument (steps? p room cls argument.value) target

/-- **The report, check by check.** Without the annotation only the first two are made. -/
theorem findings_inspect (p : Project) (room : RoomSettings) (cls : Declaration) :
    (inspect p room cls).findings =
      unannotated cls (cls.annotationNamed? room.databaseAnnotation) ++
        fieldMissing room cls (versionField? p room cls) ++
        (cls.annotationNamed? room.databaseAnnotation).elim [] fun a =>
          notExported p cls a ++
            disagreeing room cls (a.argument? "version") (annotatedVersion? p cls a)
              (fieldVersion? p room cls) ++
            migrationFindings p room cls a := by
  unfold inspect
  cases cls.annotationNamed? room.databaseAnnotation with
  | none => exact (List.append_nil _).symm
  | some a =>
    simp only [Option.elim_some, ← List.append_assoc, migrationFindings, DatabaseReport.target?,
      fieldVersion?, annotatedVersion?]
    -- without a version to reach, the argument with the migrations is not looked at
    generalize Option.or _ _ = target
    cases target with
    | none => exact (List.append_nil _).symm
    | some target => cases a.argument? "autoMigrations" <;> rfl

theorem fieldVersion?_eq_some_iff {n : Int} :
    fieldVersion? p room cls = some n ↔ FieldVersion p room cls n := by
  simp only [fieldVersion?, FieldVersion, Option.bind_eq_some_iff, Project.evaluateInt?_eq_some_iff]
  constructor
  · rintro ⟨e, ⟨f, hf, he⟩, hn⟩
    exact ⟨f, e, hf, he, hn⟩
  · rintro ⟨f, e, hf, he, hn⟩
    exact ⟨e, ⟨f, hf, he⟩, hn⟩

theorem annotatedVersion?_eq_some_iff {n : Int} :
    annotatedVersion? p cls a = some n ↔ AnnotatedVersion p cls a n := by
  simp only [annotatedVersion?, AnnotatedVersion, Option.bind_eq_some_iff,
    Project.evaluateInt?_eq_some_iff]

theorem target_eq_some_iff {n : Int} :
    (fieldVersion? p room cls).or (annotatedVersion? p cls a) = some n ↔
      TargetVersion p room cls a n := by
  rw [Option.or_eq_some_iff, fieldVersion?_eq_some_iff, annotatedVersion?_eq_some_iff,
    Option.eq_none_iff_forall_ne_some, TargetVersion]
  simp only [ne_eq, fieldVersion?_eq_some_iff]

/-- The rules that a class is reported for, in order. -/
def brokenRules (p : Project) (room : RoomSettings) (cls : Declaration) : List Rule :=
  (inspect p room cls).findings.map Finding.rule

theorem mem_rules_unannotated {annot? : Option Annot} :
    rule ∈ (unannotated cls annot?).map Finding.rule ↔
      rule = .databaseUnannotated ∧ annot? = none := by
  cases annot? <;> simp [unannotated, Finding.ofRule]

theorem mem_rules_fieldMissing {field : Option Declaration} :
    rule ∈ (fieldMissing room cls field).map Finding.rule ↔
      rule = .versionFieldMissing ∧ field = none := by
  cases field <;> simp [fieldMissing, Finding.ofRule]

theorem mem_rules_notExported :
    rule ∈ (notExported p cls a).map Finding.rule ↔
      rule = .schemaNotExported ∧ ExportsNoSchema p cls a := by
  unfold notExported ExportsNoSchema
  cases a.argument? "exportSchema" with
  | none => simp
  | some argument =>
    have hfalse :
        ((p.evaluate? (some cls) argument.value).bind Constant.asTruth? == some false) = true ↔
        p.evaluate? (some cls) argument.value = some (.truth false) := by
      rw [beq_iff_eq]
      rcases p.evaluate? (some cls) argument.value with _ | _ | _ | _ <;> simp [Constant.asTruth?]
    simp only [hfalse, Option.some.injEq, exists_eq_left']
    split
    · next h => simp [h, Finding.ofRule]
    · next h => simp [h]

theorem mem_rules_disagreeing {field : Option Int} :
    rule ∈ (disagreeing room cls (a.argument? "version") (annotatedVersion? p cls a) field).map
        Finding.rule ↔
      rule = .versionsDisagree ∧
        ∃ m n, annotatedVersion? p cls a = some m ∧ field = some n ∧ m ≠ n := by
  unfold annotatedVersion?
  cases a.argument? "version" with
  | none => simp [disagreeing]
  | some argument =>
    rw [Option.bind_some]
    cases p.evaluateInt? (some cls) argument.value with
    | none => simp [disagreeing]
    | some m =>
      cases field with
      | none => simp [disagreeing]
      | some n => by_cases h : m = n <;> simp [disagreeing, Finding.ofRule, h]

theorem mem_rules_undeclared {target : Int} :
    rule ∈ (undeclared cls a target).map Finding.rule ↔ rule = .migrationsMissing ∧ 1 < target := by
  unfold undeclared
  split
  · next h => simp [h, Finding.ofRule]
  · next h => simp [h]

theorem mem_rules_broken {argument : Argument} {steps : Option (List MigrationStep)}
    {target : Int} :
    rule ∈ (broken cls argument steps target).map Finding.rule ↔
      rule = .migrationPathBroken ∧ ∃ known, steps = some known ∧
        ¬ (1 ≤ target ∧ known.Perm (MigrationPath.chain (target - 1).toNat)) := by
  unfold broken
  cases steps with
  | none => simp
  | some known =>
    rw [Option.bind_some]
    simp only [Option.some.injEq, exists_eq_left', ← MigrationPath.defect?_eq_none_iff_perm]
    cases MigrationPath.defect? known target <;> simp [Finding.ofRule]

/-- **When a rule about the migrations is reported.** Both need a version to reach. -/
theorem mem_rules_migrationFindings :
    rule ∈ (migrationFindings p room cls a).map Finding.rule ↔
      ∃ n, TargetVersion p room cls a n ∧
        (rule = .migrationsMissing ∧ 1 < n ∧ a.argument? "autoMigrations" = none ∨
          rule = .migrationPathBroken ∧ ∃ argument steps,
            a.argument? "autoMigrations" = some argument ∧
            DeclaresSteps p room cls argument.value steps ∧
              ¬ (1 ≤ n ∧ steps.Perm (MigrationPath.chain (n - 1).toNat))) := by
  simp only [← target_eq_some_iff, ← steps?_eq_some_iff]
  unfold migrationFindings
  cases (fieldVersion? p room cls).or (annotatedVersion? p cls a) with
  | none => simp
  | some n =>
    cases a.argument? "autoMigrations" with
    | none => simp [mem_rules_undeclared]
    | some argument => simp [mem_rules_broken]

/-- **When a rule is reported.** -/
theorem mem_brokenRules_iff :
    rule ∈ brokenRules p room cls ↔
      rule = .databaseUnannotated ∧ cls.annotationNamed? room.databaseAnnotation = none ∨
        rule = .versionFieldMissing ∧ versionField? p room cls = none ∨
        ∃ a, cls.annotationNamed? room.databaseAnnotation = some a ∧
          (rule = .schemaNotExported ∧ ExportsNoSchema p cls a ∨
            (rule = .versionsDisagree ∧
              ∃ m n, AnnotatedVersion p cls a m ∧ FieldVersion p room cls n ∧ m ≠ n) ∨
            ∃ n, TargetVersion p room cls a n ∧
              (rule = .migrationsMissing ∧ 1 < n ∧ a.argument? "autoMigrations" = none ∨
                rule = .migrationPathBroken ∧ ∃ argument steps,
                  a.argument? "autoMigrations" = some argument ∧
                    DeclaresSteps p room cls argument.value steps ∧
                    ¬ (1 ≤ n ∧ steps.Perm (MigrationPath.chain (n - 1).toNat)))) := by
  simp only [← annotatedVersion?_eq_some_iff, ← fieldVersion?_eq_some_iff]
  rw [brokenRules, findings_inspect, List.map_append, List.map_append, List.mem_append,
    List.mem_append, mem_rules_unannotated, mem_rules_fieldMissing, or_assoc]
  refine or_congr_right (or_congr_right ?_)
  cases cls.annotationNamed? room.databaseAnnotation with
  | none => simp
  | some a =>
    simp only [Option.elim_some, List.map_append, List.mem_append, mem_rules_notExported,
      mem_rules_disagreeing, mem_rules_migrationFindings, or_assoc, Option.some.injEq,
      exists_eq_left']

/-! ## Rule by rule -/

theorem rules_migrationFindings_sublist (p : Project) (room : RoomSettings) (cls : Declaration)
    (a : Annot) :
    ((migrationFindings p room cls a).map Finding.rule).Sublist
      [.migrationsMissing, .migrationPathBroken] := by
  unfold migrationFindings
  split
  · exact List.nil_sublist _
  · exact (sole_undeclared a _).map_rule_sublist.trans (by decide)
  · exact (sole_broken _ _ _).map_rule_sublist.trans (by decide)

/-- The checks are made in this order, each of them once. -/
theorem brokenRules_sublist (p : Project) (room : RoomSettings) (cls : Declaration) :
    (brokenRules p room cls).Sublist
      [.databaseUnannotated, .versionFieldMissing, .schemaNotExported, .versionsDisagree,
        .migrationsMissing, .migrationPathBroken] := by
  rw [brokenRules, findings_inspect, List.map_append, List.map_append]
  refine ((sole_unannotated _).map_rule_sublist.append
    (sole_fieldMissing _).map_rule_sublist).append ?_
  cases cls.annotationNamed? room.databaseAnnotation with
  | none => exact List.nil_sublist _
  | some a =>
    rw [Option.elim_some, List.map_append, List.map_append]
    exact ((sole_notExported a).map_rule_sublist.append
      (sole_disagreeing _ _ _).map_rule_sublist).append
      (rules_migrationFindings_sublist p room cls a)

theorem nodup_brokenRules (p : Project) (room : RoomSettings) (cls : Declaration) :
    (brokenRules p room cls).Nodup :=
  (brokenRules_sublist p room cls).nodup (by decide)

theorem annotationNamed?_eq_none_iff :
    cls.annotationNamed? room.databaseAnnotation = none ↔
      ∀ a ∈ cls.annotations, a.named room.databaseAnnotation = false := by
  rw [Declaration.annotationNamed?, List.find?_eq_none]
  simp only [Bool.not_eq_true]

theorem versionField?_eq_none_iff :
    versionField? p room cls = none ↔ ∀ f, HasField p cls f → f.name ≠ room.versionField := by
  rw [versionField?, List.find?_eq_none]
  simp only [beq_iff_eq, mem_fieldsOf_iff]

/-- Without the annotation nothing is reported that needs it. -/
theorem annotationNamed?_ne_none (h : rule ∈ brokenRules p room cls)
    (hrule : rule ∉ [Rule.databaseUnannotated, .versionFieldMissing]) :
    cls.annotationNamed? room.databaseAnnotation ≠ none := by
  simp only [List.mem_cons, List.not_mem_nil, or_false, not_or] at hrule
  rcases mem_brokenRules_iff.mp h with ⟨heq, -⟩ | ⟨heq, -⟩ | ⟨a, ha, -⟩
  · exact absurd heq hrule.1
  · exact absurd heq hrule.2
  · rw [ha]
    exact Option.some_ne_none a

section Annotated

variable (ha : cls.annotationNamed? room.databaseAnnotation = some a)

include ha

theorem migrationsMissing_mem_iff :
    .migrationsMissing ∈ brokenRules p room cls ↔
      ∃ n, TargetVersion p room cls a n ∧ 1 < n ∧ a.argument? "autoMigrations" = none := by
  simp [mem_brokenRules_iff, ha]

theorem migrationPathBroken_mem_iff :
    .migrationPathBroken ∈ brokenRules p room cls ↔
      ∃ n argument steps, TargetVersion p room cls a n ∧
        a.argument? "autoMigrations" = some argument ∧
        DeclaresSteps p room cls argument.value steps ∧
        ¬ (1 ≤ n ∧ steps.Perm (MigrationPath.chain (n - 1).toNat)) := by
  simp [mem_brokenRules_iff, ha]

/-- Nothing is reported about the migrations if the version to reach is not known. -/
theorem no_migration_rule_of_version (h : ∀ n, ¬ TargetVersion p room cls a n) :
    .migrationsMissing ∉ brokenRules p room cls ∧
    .migrationPathBroken ∉ brokenRules p room cls := by
  rw [migrationsMissing_mem_iff ha, migrationPathBroken_mem_iff ha]
  constructor
  · rintro ⟨n, hn, -⟩
    exact h n hn
  · rintro ⟨n, -, -, hn, -⟩
    exact h n hn

/-- Nothing is reported about the migrations if they are declared and not all known. -/
theorem no_migration_rule_of_steps {argument : Argument}
    (hargument : a.argument? "autoMigrations" = some argument)
    (h : ∀ steps, ¬ DeclaresSteps p room cls argument.value steps) :
    .migrationsMissing ∉ brokenRules p room cls ∧
    .migrationPathBroken ∉ brokenRules p room cls := by
  rw [migrationsMissing_mem_iff ha, migrationPathBroken_mem_iff ha]
  constructor
  · rintro ⟨n, -, -, hnone⟩
    rw [hargument] at hnone
    cases hnone
  · rintro ⟨n, argument', steps, -, hargument', hsteps, -⟩
    obtain rfl := Option.some.inj (hargument.symm.trans hargument')
    exact h steps hsteps

end Annotated

/-- One item that is not known to declare a migration leaves them all unknown. -/
theorem not_declaresSteps_of_item {items : List Expr} {item : Expr} (hitem : item ∈ items)
    (h : ∀ step, ¬ ItemDeclares p room cls item step) (steps : List MigrationStep) :
    ¬ DeclaresSteps p room cls (.array items) steps := by
  intro hsteps
  cases hsteps with
  | array hsteps =>
    obtain ⟨step, hstep⟩ := exists_of_mem_forall₂ hsteps hitem
    exact h step hstep

/-- **What a database class is reported for.** Each rule is reported at most once. A class without
the annotation is reported for that, and for nothing that needs it; a class without a version field
is reported for that. A class with the annotation is reported if its schema is not exported, if both
versions are known and differ, if the version to reach is above 1 and no migrations are declared,
and if the declared migrations are all known and do not lead to that version, as no migrations do to
a version below 1. If the version to reach, an item of the migrations or an operand of one is not
known, the migrations are left alone. -/
theorem brokenRules_exact (p : Project) (room : RoomSettings) (cls : Declaration) :
    (brokenRules p room cls).Nodup ∧
      (.databaseUnannotated ∈ brokenRules p room cls ↔
        ∀ a ∈ cls.annotations, a.named room.databaseAnnotation = false) ∧
      (.databaseUnannotated ∈ brokenRules p room cls →
        .schemaNotExported ∉ brokenRules p room cls ∧ .versionsDisagree ∉ brokenRules p room cls ∧
          .migrationsMissing ∉ brokenRules p room cls ∧
          .migrationPathBroken ∉ brokenRules p room cls) ∧
      (.versionFieldMissing ∈ brokenRules p room cls ↔
        ∀ f, HasField p cls f → f.name ≠ room.versionField) ∧
      (.schemaNotExported ∈ brokenRules p room cls ↔
        ∃ a, cls.annotationNamed? room.databaseAnnotation = some a ∧ ExportsNoSchema p cls a) ∧
      (.versionsDisagree ∈ brokenRules p room cls ↔
        ∃ a, cls.annotationNamed? room.databaseAnnotation = some a ∧
          ∃ m n, AnnotatedVersion p cls a m ∧ FieldVersion p room cls n ∧ m ≠ n) ∧
      ∀ a, cls.annotationNamed? room.databaseAnnotation = some a →
        (.migrationsMissing ∈ brokenRules p room cls ↔
          ∃ n, TargetVersion p room cls a n ∧ 1 < n ∧ a.argument? "autoMigrations" = none) ∧
        (.migrationPathBroken ∈ brokenRules p room cls ↔
          ∃ n argument steps, TargetVersion p room cls a n ∧
            a.argument? "autoMigrations" = some argument ∧
            DeclaresSteps p room cls argument.value steps ∧
            ¬ (1 ≤ n ∧ steps.Perm (MigrationPath.chain (n - 1).toNat))) ∧
        ((∀ n, ¬ TargetVersion p room cls a n) →
          .migrationsMissing ∉ brokenRules p room cls ∧
            .migrationPathBroken ∉ brokenRules p room cls) ∧
        ∀ argument, a.argument? "autoMigrations" = some argument →
          ((∀ steps, ¬ DeclaresSteps p room cls argument.value steps) ∨
            ∃ items, argument.value = .array items ∧
              ∃ item ∈ items, ∀ step, ¬ ItemDeclares p room cls item step) →
          .migrationsMissing ∉ brokenRules p room cls ∧
            .migrationPathBroken ∉ brokenRules p room cls := by
  have hunannotated : .databaseUnannotated ∈ brokenRules p room cls ↔
      cls.annotationNamed? room.databaseAnnotation = none := by
    simp [mem_brokenRules_iff]
  refine ⟨nodup_brokenRules p room cls, ?_, ?_, ?_, ?_, ?_, ?_⟩
  · rw [hunannotated, annotationNamed?_eq_none_iff]
  · intro h
    have hnone := hunannotated.mp h
    refine ⟨?_, ?_, ?_, ?_⟩ <;> exact fun hmem => annotationNamed?_ne_none hmem (by decide) hnone
  · rw [← versionField?_eq_none_iff]
    simp [mem_brokenRules_iff]
  · simp [mem_brokenRules_iff]
  · simp [mem_brokenRules_iff]
  · intro a ha
    refine ⟨migrationsMissing_mem_iff ha, migrationPathBroken_mem_iff ha,
      no_migration_rule_of_version ha, ?_⟩
    -- an unknown item is a case of unknown migrations
    rintro argument hargument (hnone | ⟨items, hvalue, item, hitem, hunknown⟩)
    · exact no_migration_rule_of_steps ha hargument hnone
    · refine no_migration_rule_of_steps ha hargument fun steps => ?_
      rw [hvalue]
      exact not_declaresSteps_of_item hitem hunknown steps

/-- An argument, with its name if it has one. -/
def argumentOf (name : Option String) (value : Expr) : Argument :=
  ⟨name, value, ⟨⟨"Db.java"⟩, 1, 1, 0, 1⟩⟩

/-- A declared migration, with its operands. -/
def migrationOf (operands : List Argument) : Expr :=
  .annot ⟨"AutoMigration", operands, ⟨⟨"Db.java"⟩, 1, 1, 0, 1⟩⟩

/-- The annotation of a database, with its version and migrations. -/
def databaseAnnot (version : Int) (migrations : List Expr) : Annot :=
  ⟨"androidx.room.Database",
    [argumentOf (some "version") (.int version),
      argumentOf (some "autoMigrations") (.array migrations)],
    ⟨⟨"Db.java"⟩, 1, 1, 0, 1⟩⟩

/-- A class with this annotation. -/
def databaseClass (version : Int) (migrations : List Expr) : Declaration where
  id := ⟨⟨"Db.java"⟩, 0, 1⟩
  name := "Db"
  kind := .classType
  location := ⟨⟨"Db.java"⟩, 1, 1, 0, 1⟩
  language := .java
  annotations := [databaseAnnot version migrations]

theorem annotationNamed?_databaseClass (version : Int) (migrations : List Expr) :
    (databaseClass version migrations).annotationNamed? (RoomSettings.databaseAnnotation {}) =
      some (databaseAnnot version migrations) := by
  have hname : Text.lastDotted "androidx.room.Database" = TypeName.simple "Database" := by
    decide +kernel
  exact List.find?_cons_of_pos (beq_iff_eq.mpr hname)

/-- Two migrations with named and with positional operands, which leave a gap, and one with an
operand that is not known. -/
theorem brokenRules_exact_gap :
    .migrationPathBroken ∈ brokenRules {} {} (databaseClass 3
        [migrationOf [argumentOf (some "from") (.int 1), argumentOf (some "to") (.int 2)],
          migrationOf [argumentOf none (.int 2), argumentOf none (.int 4)]]) ∧
      .migrationPathBroken ∉ brokenRules {} {} (databaseClass 3
        [migrationOf [argumentOf none (.reference "V"), argumentOf none (.int 2)]]) := by
  obtain ⟨-, -, -, -, -, -, hgap⟩ := brokenRules_exact {} {} (databaseClass 3
    [migrationOf [argumentOf (some "from") (.int 1), argumentOf (some "to") (.int 2)],
      migrationOf [argumentOf none (.int 2), argumentOf none (.int 4)]])
  obtain ⟨-, -, -, -, -, -, hunknown⟩ := brokenRules_exact {} {} (databaseClass 3
    [migrationOf [argumentOf none (.reference "V"), argumentOf none (.int 2)]])
  refine ⟨(hgap _ (annotationNamed?_databaseClass _ _)).2.1.mpr ?_, ?_⟩
  · refine ⟨3, argumentOf (some "autoMigrations") _, [⟨1, 2⟩, ⟨2, 4⟩], ?_, rfl, ?_, by decide⟩
    · exact target_eq_some_iff.mp (by decide +kernel)
    · exact steps?_eq_some_iff.mp (by decide +kernel)
  · have hitem : itemStep? {} {} (databaseClass 3
        [migrationOf [argumentOf none (.reference "V"), argumentOf none (.int 2)]])
        (migrationOf [argumentOf none (.reference "V"), argumentOf none (.int 2)]) = none := by
      decide +kernel
    refine ((hunknown _ (annotationNamed?_databaseClass _ _)).2.2.2
      (argumentOf (some "autoMigrations") _) rfl
        (.inr ⟨_, rfl, _, List.mem_singleton_self _, ?_⟩)).2
    intro step hstep
    rw [← itemStep?_eq_some_iff, hitem] at hstep
    cases hstep

/-- **A version below 1 is never reached.** A class at version 0 declares no migrations, which are
all the steps from version 1 to there, and it is reported for a broken path. -/
theorem no_migrations_broken_at_zero :
    .migrationPathBroken ∈ brokenRules {} {} (databaseClass 0 []) ∧
      ¬ ∃ n argument steps, TargetVersion {} {} (databaseClass 0 []) (databaseAnnot 0 []) n ∧
        (databaseAnnot 0 []).argument? "autoMigrations" = some argument ∧
        DeclaresSteps {} {} (databaseClass 0 []) argument.value steps ∧
        ¬ steps.Perm (MigrationPath.chain (n - 1).toNat) := by
  have htarget : (fieldVersion? {} {} (databaseClass 0 [])).or
      (annotatedVersion? {} (databaseClass 0 []) (databaseAnnot 0 [])) = some 0 := by
    decide +kernel
  constructor
  · refine (migrationPathBroken_mem_iff (annotationNamed?_databaseClass 0 [])).mpr ?_
    exact ⟨0, argumentOf (some "autoMigrations") (.array []), [],
      target_eq_some_iff.mp htarget, rfl, .array .nil, by decide⟩
  · rintro ⟨n, argument, steps, hn, hargument, hsteps, hperm⟩
    obtain rfl := Option.some.inj (htarget.symm.trans (target_eq_some_iff.mpr hn))
    obtain rfl : argumentOf (some "autoMigrations") (.array []) = argument :=
      Option.some.inj hargument
    cases hsteps with
    | array hsteps =>
      cases hsteps
      exact hperm (by decide)

end Database

end AdLint
