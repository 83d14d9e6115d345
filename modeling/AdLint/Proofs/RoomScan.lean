import AdLint.Proofs.Order
import AdLint.Proofs.Reach
import AdLint.Proofs.Record
import AdLint.Room.Scan
import Mathlib.Logic.Function.Iterate

/-!
# What a Room scan finds

A scan that has not begun inspects the databases, in their order, and then compares them with the
registration class. The findings of a whole scan are stated here without the phases: what is found
about each database on its own, and after that either nothing, or one finding that the registration
class is missing, or one finding for each database that no field of a registration class registers.

The fields that count stand in a registration class or in a type nested in it at any depth. The
search for them is bounded by the number of declarations, and `Registration.mem_fieldsBelow_all`
shows that the bound cuts nothing off, in any project.

## Main definitions

* `Project.Nested`: a type and the types nested in it
* `Project.Registers`: a field of a registration class registers a database
* `RoomScan.IsEarliest`: the first of the earliest databases

## Main results

* `RoomScan.isRegistered_iff`: the index of registered types decides `Project.Registers`
* `RoomScan.run_iterate`: steps taken before a run do not change its findings
* `RoomScan.run_start`: the findings of a scan without its phases
* `RoomScan.verified_of_not_found`, `RoomScan.verified_of_found`: the findings of the second phase
* `RoomScan.findings_after_steps`: the findings of a scan, however many steps were taken before
-/

namespace AdLint

open Std

/-! ## Fields of nested types -/

namespace Project

/-- `inner` is a type that stands directly in `outer`. -/
def Holds (p : Project) (outer inner : Declaration) : Prop :=
  inner ∈ p.children outer.id ∧ inner.isType = true

/-- `inner` is `outer` or a type nested in it, at any depth. -/
def Nested (p : Project) : Declaration → Declaration → Prop := Relation.ReflTransGen p.Holds

/-- The type written for a field denotes a database: the simple names agree, and so do the qualified
names where both are known. -/
def Denotes (p : Project) (field database : Declaration) : Prop :=
  ∃ written, field.typeName = some written ∧
    TypeName.simple written = TypeName.simple database.name ∧
    (p.qualifyType? field.location.file written = none ∨
      p.qualifiedName? database = none ∨
      p.qualifyType? field.location.file written = p.qualifiedName? database)

/-- Some field of a registration class, or of a type nested in one, has the type of the database. -/
def Registers (p : Project) (className : String) (database : Declaration) : Prop :=
  ∃ c ∈ p.types, c.name = className ∧
    ∃ t, p.Nested c t ∧ ∃ field ∈ p.fieldsOf t, p.Denotes field database

end Project

namespace Registration

variable {p : Project} {className : String} {d f : Declaration}

theorem mem_fieldsBelow {n : Nat} :
    f ∈ fieldsBelow p n d ↔ ∃ t, ReachWithin p.Holds n d t ∧ f ∈ p.fieldsOf t := by
  induction n generalizing d with
  | zero =>
    refine ⟨fun h => ⟨d, .here 0 d, h⟩, ?_⟩
    rintro ⟨t, ht, hf⟩
    cases ht with
    | here => exact hf
  | succ n ih =>
    rw [fieldsBelow, List.mem_append, List.mem_flatMap]
    constructor
    · rintro (h | ⟨c, hc, h⟩)
      · exact ⟨d, .here _ d, h⟩
      · obtain ⟨t, ht, hf⟩ := ih.mp h
        exact ⟨t, .step (List.mem_filter.mp hc) ht, hf⟩
    · rintro ⟨t, ht, hf⟩
      cases ht with
      | here => exact .inl hf
      | step hdc ht => exact .inr ⟨_, List.mem_filter.mpr hdc, ih.mpr ⟨t, ht, hf⟩⟩

/-- The bound of the search cuts nothing off. -/
theorem mem_fieldsBelow_all :
    f ∈ fieldsBelow p p.added.length d ↔ ∃ t, p.Nested d t ∧ f ∈ p.fieldsOf t := by
  have hplaces : ∀ x y, p.Holds x y → y ∈ p.added := fun x y hxy =>
    Project.mem_added_of_find? (Project.find?_of_mem_children hxy.1)
  simp only [mem_fieldsBelow, Project.Nested, reachWithin_length_iff hplaces]

theorem isFound_collect_iff :
    (collect p className).isFound = true ↔ ∃ c ∈ p.types, c.name = className := by
  simp [isFound, collect]

/-- A registered type is the type of a field that counts. -/
theorem mem_types_collect {r : RegisteredType} :
    r ∈ (collect p className).types ↔
      ∃ c ∈ p.types, c.name = className ∧ ∃ t, p.Nested c t ∧
        ∃ field ∈ p.fieldsOf t, typeOf? p field = some r := by
  simp only [collect, List.mem_filterMap, List.mem_flatMap, List.mem_filter, beq_iff_eq]
  constructor
  · rintro ⟨field, ⟨c, ⟨hc, hname⟩, hfield⟩, hr⟩
    obtain ⟨t, ht, hf⟩ := mem_fieldsBelow_all.mp hfield
    exact ⟨c, hc, hname, t, ht, field, hf, hr⟩
  · rintro ⟨c, hc, hname, t, ht, field, hf, hr⟩
    exact ⟨field, ⟨c, ⟨hc, hname⟩, mem_fieldsBelow_all.mpr ⟨t, ht, hf⟩⟩, hr⟩

theorem typeOf?_eq_some_iff {simple : String} {qualified : Option String} :
    typeOf? p f = some ⟨simple, qualified⟩ ↔ ∃ written, f.typeName = some written ∧
      TypeName.simple written = simple ∧
      p.qualifyType? f.location.file written = qualified := by
  simp only [typeOf?, Option.map_eq_some_iff, RegisteredType.mk.injEq]

theorem registers_iff {r : Registration} {name : String} {qualified : Option String} :
    r.registers name qualified = true ↔
      ∃ t ∈ r.types, t.simple = TypeName.simple name ∧
        (t.qualified = none ∨ qualified = none ∨ t.qualified = qualified) := by
  simp only [registers, List.any_eq_true, List.mem_filter, beq_iff_eq, and_assoc]
  refine exists_congr fun t => and_congr_right fun _ => and_congr_right fun _ => ?_
  cases qualified with
  | none => simp
  | some q =>
    cases t.qualified with
    | none => simp
    | some registered =>
      rw [beq_iff_eq, Option.some_inj]
      simp [eq_comm]

end Registration

/-! ## Registered databases -/

namespace RoomScan

variable {p : Project} {room : RoomSettings}

/-- The index of registered types decides whether a field registers a database. -/
theorem isRegistered_iff {className : String} {database : Declaration}
    (hd : p.find? database.id = some database) :
    isRegistered p (Registration.collect p className) database = true ↔
      p.Registers className database := by
  rw [isRegistered, hd, Option.bind_some, Registration.registers_iff]
  constructor
  · rintro ⟨⟨simple, qualified⟩, hr, hsimple, hqualified⟩
    obtain ⟨c, hc, hname, t, ht, field, hf, htype⟩ := Registration.mem_types_collect.mp hr
    obtain ⟨written, hwritten, rfl, rfl⟩ := Registration.typeOf?_eq_some_iff.mp htype
    dsimp only at hsimple hqualified
    exact ⟨c, hc, hname, t, ht, field, hf, written, hwritten, hsimple, hqualified⟩
  · rintro ⟨c, hc, hname, t, ht, field, hf, written, hwritten, hsimple, hqualified⟩
    have htype : Registration.typeOf? p field =
        some ⟨TypeName.simple written, p.qualifyType? field.location.file written⟩ :=
      Registration.typeOf?_eq_some_iff.mpr ⟨written, hwritten, rfl, rfl⟩
    refine ⟨_, Registration.mem_types_collect.mpr ⟨c, hc, hname, t, ht, field, hf, htype⟩, ?_⟩
    dsimp only
    exact ⟨hsimple, hqualified⟩

/-! ## The earliest database -/

/-- The order of declarations by file and line. -/
def comparePlace (d e : Declaration) : Ordering :=
  (d.location.file.compare e.location.file).then (compare d.location.line e.location.line)

instance : TransCmp comparePlace := by
  have hfile := transCmp_on Path.compare fun d : Declaration => d.location.file
  have hline := transCmp_on (compare : Nat → Nat → Ordering) fun d : Declaration => d.location.line
  exact inferInstanceAs (TransCmp (compareLex _ _))

/-- `first` is the earliest of the databases, and stands before those that are as early. -/
def IsEarliest (databases : List Declaration) (first : Declaration) : Prop :=
  ∃ before after, databases = before ++ first :: after ∧
    (∀ d ∈ before, comparePlace first d = .lt) ∧ ∀ d ∈ after, (comparePlace first d).isLE

theorem IsEarliest.isLE {ds : List Declaration} {e d : Declaration} (h : IsEarliest ds e)
    (hd : d ∈ ds) : (comparePlace e d).isLE := by
  obtain ⟨before, after, rfl, hbefore, hafter⟩ := h
  rcases List.mem_append.mp hd with hd | hd
  · rw [hbefore d hd]
    rfl
  · rcases List.mem_cons.mp hd with rfl | hd
    · exact Ordering.isLE_of_eq_eq ReflCmp.compare_self
    · exact hafter d hd

theorem exists_earliest? (d : Declaration) (ds : List Declaration) :
    ∃ first, earliest? (d :: ds) = some first ∧ IsEarliest (d :: ds) first := by
  induction ds generalizing d with
  | nil => exact ⟨d, rfl, [], [], rfl, by simp, by simp⟩
  | cons c ds ih =>
    obtain ⟨e, he, hearliest⟩ := ih c
    rw [earliest?, he]
    change ∃ first, some (if comparePlace d e == .gt then e else d) = some first ∧ _
    by_cases hgt : comparePlace d e = .gt
    · -- `e` is earlier than `d` and stays the earliest
      obtain ⟨before, after, hsplit, hbefore, hafter⟩ := hearliest
      refine ⟨e, by simp [hgt], d :: before, after, by rw [hsplit]; rfl, ?_, hafter⟩
      intro x hx
      rcases List.mem_cons.mp hx with rfl | hx
      · exact OrientedCmp.lt_of_gt hgt
      · exact hbefore x hx
    · -- `d` is no later than `e`, hence no later than anything after it
      have hle : (comparePlace d e).isLE := by
        revert hgt
        cases comparePlace d e <;> simp
      refine ⟨d, by simp [hgt], [], c :: ds, rfl, by simp, ?_⟩
      intro x hx
      exact TransCmp.isLE_trans hle (hearliest.isLE hx)

end RoomScan

/-! ## Rules about a single database -/

/-- At most one finding, of the given rule. -/
inductive Sole (rule : Rule) : List Finding → Prop
  | none : Sole rule []
  | one {f : Finding} : f.rule = rule → Sole rule [f]

theorem Sole.rule_eq {rule : Rule} {fs : List Finding} (h : Sole rule fs) {f : Finding}
    (hf : f ∈ fs) : f.rule = rule := by
  cases h with
  | none => exact absurd hf (by simp)
  | one hrule =>
    rw [List.mem_singleton.mp hf]
    exact hrule

namespace Database

variable {p : Project} {room : RoomSettings} {cls : Declaration}

/-- The rules that a database on its own can break. -/
def rules : List Rule :=
  [.databaseUnannotated, .schemaNotExported, .versionFieldMissing, .versionsDisagree,
    .migrationsMissing, .migrationPathBroken]

theorem sole_unannotated (a : Option Annot) : Sole .databaseUnannotated (unannotated cls a) := by
  unfold unannotated
  split
  · exact .one rfl
  · exact .none

theorem sole_fieldMissing (field : Option Declaration) :
    Sole .versionFieldMissing (fieldMissing room cls field) := by
  unfold fieldMissing
  split
  · exact .one rfl
  · exact .none

theorem sole_notExported (a : Annot) : Sole .schemaNotExported (notExported p cls a) := by
  unfold notExported
  split
  · split
    · exact .one rfl
    · exact .none
  · exact .none

theorem sole_disagreeing (version : Option Argument) (annotated field : Option Int) :
    Sole .versionsDisagree (disagreeing room cls version annotated field) := by
  unfold disagreeing
  split
  · split
    · exact .one rfl
    · exact .none
  · exact .none

theorem sole_undeclared (a : Annot) (target : Int) :
    Sole .migrationsMissing (undeclared cls a target) := by
  unfold undeclared
  split
  · exact .one rfl
  · exact .none

theorem sole_broken (argument : Argument) (steps : Option (List MigrationStep)) (target : Int) :
    Sole .migrationPathBroken (broken cls argument steps target) := by
  unfold broken
  split
  · exact .one rfl
  · exact .none

/-- An inspection reports only rules about a single database. -/
theorem rule_mem_of_mem_inspect {f : Finding} (h : f ∈ (inspect p room cls).findings) :
    f.rule ∈ rules := by
  have hstart : ∀ {a field}, f ∈ unannotated cls a ++ fieldMissing room cls field →
      f.rule ∈ rules := by
    intro a field hf
    rcases List.mem_append.mp hf with hf | hf
    · simp [(sole_unannotated a).rule_eq hf, rules]
    · simp [(sole_fieldMissing field).rule_eq hf, rules]
  have hannotated : ∀ {a : Annot} {version annotated field},
      f ∈ notExported p cls a ++ disagreeing room cls version annotated field →
      f.rule ∈ rules := by
    intro a version annotated field hf
    rcases List.mem_append.mp hf with hf | hf
    · simp [(sole_notExported a).rule_eq hf, rules]
    · simp [(sole_disagreeing version annotated field).rule_eq hf, rules]
  unfold inspect at h
  cases ha : cls.annotationNamed? room.databaseAnnotation with
  | none =>
    simp only [ha] at h
    exact hstart h
  | some a =>
    simp only [ha] at h
    -- what the migrations add depends on the target and on the argument for them
    split at h
    · rw [List.append_assoc] at h
      exact (List.mem_append.mp h).elim hstart hannotated
    · rw [List.append_assoc (unannotated _ _ ++ _), List.mem_append, List.mem_append] at h
      rcases h with (h | h) | h
      · exact hstart h
      · exact hannotated h
      · simp [(sole_undeclared _ _).rule_eq h, rules]
    · rw [List.append_assoc (unannotated _ _ ++ _), List.mem_append, List.mem_append] at h
      rcases h with (h | h) | h
      · exact hstart h
      · exact hannotated h
      · simp [(sole_broken _ _ _).rule_eq h, rules]

end Database

/-! ## The phases of a scan -/

namespace RoomScan

variable {p : Project} {room : RoomSettings}

/-- A scan of the project that has its databases on the list. -/
structure Collected (p : Project) (room : RoomSettings) (s : RoomScan) : Prop where
  project_eq : s.project = p
  room_eq : s.room = room
  phase_ne : s.phase ≠ .collect
  databases_eq : s.databases = databasesOf p room

theorem collected_step_start : Collected p room (start p room).step where
  project_eq := rfl
  room_eq := rfl
  phase_ne := by
    change (if ([] ++ databasesOf p room).isEmpty then ScanPhase.done else .verify) ≠ .collect
    split <;> simp
  databases_eq := rfl

/-- A step after the first leaves the list of databases alone. -/
theorem Collected.step {s : RoomScan} (h : Collected p room s) : Collected p room s.step := by
  obtain ⟨hproject, hroom, hphase, hdatabases⟩ := h
  unfold RoomScan.step
  split
  case h_1 hcollect => exact absurd hcollect hphase
  case h_2 => exact ⟨hproject, hroom, by simp, hdatabases⟩
  case h_3 => exact ⟨hproject, hroom, hphase, hdatabases⟩

theorem collected_iterate (k : Nat) : Collected p room (RoomScan.step^[k + 1] (start p room)) := by
  induction k with
  | zero => exact collected_step_start
  | succ k ih =>
    rw [Function.iterate_succ_apply']
    exact ih.step

theorem step_of_done {s : RoomScan} (h : s.phase = .done) : s.step = s := by
  unfold RoomScan.step
  rw [h]

/-- Two steps end a scan, from whatever phase. -/
theorem phase_step_step (s : RoomScan) : s.step.step.phase = .done := by
  have hverify : ∀ t : RoomScan, t.phase ≠ .collect → t.step.phase = .done := by
    intro t ht
    unfold RoomScan.step
    split
    case h_1 hcollect => exact absurd hcollect ht
    case h_2 => rfl
    case h_3 hdone => exact hdone
  -- the first step leaves the phase that collects, whether or not there is a database
  apply hverify
  unfold RoomScan.step
  split
  · change (if _ then ScanPhase.done else .verify) ≠ .collect
    split <;> simp
  · simp
  case h_3 hdone => simp [hdone]

/-- A run takes steps until the scan is done: its findings are those of any state of the scan that
is done. -/
theorem run_eq_of_done {s : RoomScan} {n : Nat} (h : (RoomScan.step^[n] s).phase = .done) :
    s.run = (RoomScan.step^[n] s).findings := by
  have hstay : ∀ {m k : Nat}, (RoomScan.step^[m] s).phase = .done →
      RoomScan.step^[k + m] s = RoomScan.step^[m] s := by
    intro m k hm
    rw [Function.iterate_add_apply]
    exact Function.iterate_fixed (step_of_done hm) k
  -- `n` steps and two steps both end the scan, so together they get no further than either
  have htwo : RoomScan.step^[n + 2] s = RoomScan.step^[2] s := hstay (phase_step_step s)
  have hn : RoomScan.step^[2 + n] s = RoomScan.step^[n] s := hstay h
  rw [← hn, Nat.add_comm, htwo]
  rfl

/-- Steps taken before a run do not change its findings. -/
theorem run_iterate (k : Nat) (s : RoomScan) : (RoomScan.step^[k] s).run = s.run := by
  have htwo : RoomScan.step^[2 + k] s = (RoomScan.step^[k] s).step.step :=
    Function.iterate_add_apply RoomScan.step 2 k s
  have hdone : (RoomScan.step^[2 + k] s).phase = .done := by
    rw [htwo]
    exact phase_step_step _
  rw [run_eq_of_done hdone, htwo]
  rfl

/-! ## The findings of a scan -/

/-- The classes below the base class, in the order of the project. -/
def tracked (p : Project) (room : RoomSettings) : List Declaration :=
  p.declarations.filter fun d => d.kind == .classType && p.isSubtypeOf d room.baseClass

theorem databasesOf_eq_tracked : databasesOf p room = tracked p room := by
  rw [databasesOf, tracked, Project.types, List.filter_filter]
  congr 1
  funext d
  -- a class is a type, so asking for both is asking for a class
  cases hkind : d.kind <;> simp [Declaration.isType, DeclarationKind.isType, hkind]

/-- The findings of a scan without its phases. -/
theorem run_start : (start p room).run =
    ((tracked p room).flatMap fun d => (Database.inspect p room d).findings) ++
      if (tracked p room).isEmpty then [] else verified p room (tracked p room) := by
  have hstep : (start p room).step =
      { project := p, room, databases := tracked p room,
        phase := if (tracked p room).isEmpty then .done else .verify,
        findings := (tracked p room).flatMap fun d => (Database.inspect p room d).findings } := by
    simp only [start, RoomScan.step, databasesOf_eq_tracked, List.nil_append, List.flatMap_map]
  rw [run, hstep]
  cases htracked : (tracked p room).isEmpty
  · rfl
  · simp [RoomScan.step]

theorem verified_of_not_found {databases : List Declaration} (hne : databases ≠ [])
    (h : ¬ ∃ c ∈ p.types, c.name = room.registrationClass) :
    ∃ first missing, IsEarliest databases first ∧ verified p room databases = [missing] ∧
      missing.rule = .registrationMissing ∧ missing.location = first.location := by
  have hfound : (Registration.collect p room.registrationClass).isFound = false := by
    rw [← Bool.not_eq_true, Registration.isFound_collect_iff]
    exact h
  obtain ⟨d, ds, rfl⟩ := List.exists_cons_of_ne_nil hne
  obtain ⟨first, hfirst, hearliest⟩ := exists_earliest? d ds
  have hmissing : ∃ missing, registrationMissing room (d :: ds) = [missing] ∧
      missing.rule = .registrationMissing ∧ missing.location = first.location := by
    rw [registrationMissing, hfirst]
    exact ⟨_, rfl, rfl, rfl⟩
  obtain ⟨missing, heq, hrule, hlocation⟩ := hmissing
  refine ⟨first, missing, hearliest, ?_, hrule, hlocation⟩
  simp only [verified, hfound, Bool.false_eq_true, if_false, heq]

open Classical in
theorem verified_of_found {databases : List Declaration}
    (hcurrent : ∀ d ∈ databases, p.find? d.id = some d)
    (h : ∃ c ∈ p.types, c.name = room.registrationClass) :
    verified p room databases =
      (databases.filter fun d => decide ¬ p.Registers room.registrationClass d).map
        (unregistered room) := by
  have hfound := Registration.isFound_collect_iff.mpr h
  simp only [verified, hfound, if_true]
  congr 1
  refine List.filter_congr fun d hd => ?_
  rw [Bool.eq_iff_iff, Bool.not_eq_true', ← Bool.not_eq_true, isRegistered_iff (hcurrent d hd),
    decide_eq_true_iff]

/-- The second phase decides once whether there is a registration class, so it reports one rule. -/
theorem exists_rule_verified (p : Project) (room : RoomSettings) (databases : List Declaration) :
    ∃ rule ∈ [Rule.databaseUnregistered, .registrationMissing],
      ∀ f ∈ verified p room databases, f.rule = rule := by
  unfold verified
  dsimp only
  split
  · refine ⟨.databaseUnregistered, by simp, fun f hf => ?_⟩
    obtain ⟨d, -, rfl⟩ := List.mem_map.mp hf
    rfl
  · refine ⟨.registrationMissing, by simp, fun f hf => ?_⟩
    unfold registrationMissing at hf
    split at hf
    · rw [List.mem_singleton.mp hf]
      rfl
    · simp at hf

/-- A finding of a scan is about a database on its own, or comes from the second phase. -/
theorem rule_mem_or_mem_verified {f : Finding} (hf : f ∈ (start p room).run) :
    f.rule ∈ Database.rules ∨ f ∈ verified p room (tracked p room) := by
  rw [run_start, List.mem_append] at hf
  rcases hf with hf | hf
  · obtain ⟨d, -, hf⟩ := List.mem_flatMap.mp hf
    exact .inl (Database.rule_mem_of_mem_inspect hf)
  · split at hf
    · simp at hf
    · exact .inr hf

/-- One scan never reports both an unregistered database and a missing registration class. -/
theorem not_unregistered_and_missing :
    ¬ ((∃ f ∈ (start p room).run, f.rule = .databaseUnregistered) ∧
      ∃ f ∈ (start p room).run, f.rule = .registrationMissing) := by
  rintro ⟨⟨f, hf, hfrule⟩, g, hg, hgrule⟩
  obtain ⟨rule, -, hrule⟩ := exists_rule_verified p room (tracked p room)
  -- neither rule is about a single database, so both findings come from the second phase
  have hf := (rule_mem_or_mem_verified hf).resolve_left (by rw [hfrule]; decide)
  have hg := (rule_mem_or_mem_verified hg).resolve_left (by rw [hgrule]; decide)
  have heq : Rule.databaseUnregistered = .registrationMissing := by
    rw [← hfrule, ← hgrule, hrule f hf, hrule g hg]
  exact absurd heq (by decide)

open Classical in
/-- **The findings of a scan, after any number of steps.** A run gives the findings about each
tracked database, in order. Nothing follows when there is none. Otherwise, without a
registration class, one finding at the earliest database follows; and with one, an error at each
database that no field registers, which names the database and the class. The list of databases
stays as the first step leaves it. -/
theorem findings_after_steps (p : Project) (room : RoomSettings) (k : Nat) :
    (RoomScan.step^[k] (start p room)).run = (start p room).run ∧
    (∃ rest, (start p room).run =
        ((tracked p room).flatMap fun d => (Database.inspect p room d).findings) ++ rest ∧
      (tracked p room = [] → rest = []) ∧
      (tracked p room ≠ [] → (¬ ∃ c ∈ p.types, c.name = room.registrationClass) →
        ∃ first missing, IsEarliest (tracked p room) first ∧ rest = [missing] ∧
          missing.rule = .registrationMissing ∧ missing.location = first.location) ∧
      (tracked p room ≠ [] → (∃ c ∈ p.types, c.name = room.registrationClass) →
        rest = ((tracked p room).filter fun d =>
          decide ¬ p.Registers room.registrationClass d).map fun d =>
            { rule := .databaseUnregistered
              location := d.location
              subject := d.name
              severity := .error
              confidence := .high
              message :=
                s!"Room database '{d.name}' is not registered in {room.registrationClass}" })) ∧
    ¬ ((∃ f ∈ (start p room).run, f.rule = .databaseUnregistered) ∧
      ∃ f ∈ (start p room).run, f.rule = .registrationMissing) ∧
    (RoomScan.step^[k + 1] (start p room)).databases = tracked p room := by
  refine ⟨run_iterate k _, ⟨_, run_start, ?_, ?_, ?_⟩, not_unregistered_and_missing, ?_⟩
  · intro hnil
    simp [hnil]
  · intro hne hclass
    rw [if_neg (by simpa using hne)]
    exact verified_of_not_found hne hclass
  · intro hne hclass
    rw [if_neg (by simpa using hne)]
    refine verified_of_found (fun d hd => ?_) hclass
    exact Project.find?_of_mem_declarations (List.mem_filter.mp hd).1
  · rw [(collected_iterate k).databases_eq, databasesOf_eq_tracked]

end RoomScan

end AdLint
