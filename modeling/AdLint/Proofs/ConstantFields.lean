import AdLint.Java.Outline
import AdLint.Proofs.Evaluation
import AdLint.Proofs.FindingPlaces

/-!
# Values that come from fields

The value of an expression comes from the initializers of fields: of the fields that its references
denote, of those that the initializers of these denote, and so on. It is what the expression stands
for while the program runs, as long as these fields still hold what they were initialized with. A
constant field always does if its own initializer comes from constants alone. Any other field can be
assigned to, and nothing is known about what it holds.

The evaluation does not ask whether a field is constant, and the inspection of a database does not
ask it of the version field. So a known value is the value in every state of the program exactly if
all the fields that it comes from are constant.

## Main definitions

* `Project.Uses`: the fields whose initializers the value of an expression comes from
* `Project.valueIn?`: the value of an expression while fields hold given values
* `Project.Possible`: the values that the fields can hold while the program runs

## Main results

* `Project.valueIn?_of_evaluateWithin?`: a known value is right while the fields hold initial values
* `Database.reports_fieldMissing_iff`: when a database is reported for its version field
* `Project.value_fixed_iff_constant`: when a known value is right in every state
-/

namespace AdLint

namespace Project

variable {p : Project} {scope : Option Declaration} {e : Expr} {f g : Declaration} {v : Constant}

/-! ## The fields that a value comes from -/

/-- The fields whose initializers the value of an expression comes from. -/
inductive Uses (p : Project) : Option Declaration → Expr → Declaration → Prop
  | field {scope : Option Declaration} {path : String} {f : Declaration}
      (hf : p.findField? scope path = some f) : Uses p scope (.reference path) f
  | initializer {scope : Option Declaration} {path : String} {f g : Declaration} {e : Expr}
      (hf : p.findField? scope path = some f) (he : f.initializer = some e)
      (hg : Uses p (some (p.initializerScope f)) e g) : Uses p scope (.reference path) g
  | operand {scope : Option Declaration} {operands : List Expr} {e : Expr} {g : Declaration}
      (he : e ∈ operands) (hg : Uses p scope e g) : Uses p scope (.concat operands) g

/-- What the initializer of a used field uses is used. -/
theorem Uses.trans (hf : p.Uses scope e f) {e' : Expr} (he : f.initializer = some e')
    (hg : p.Uses (some (p.initializerScope f)) e' g) : p.Uses scope e g := by
  induction hf with
  | field hfound => exact .initializer hfound he hg
  | initializer hfound hinit _ ih => exact .initializer hfound hinit (ih he hg)
  | operand hmem _ ih => exact .operand hmem (ih he hg)

theorem Uses.kind_eq (hf : p.Uses scope e f) : f.kind = .field ∧ p.find? f.id = some f := by
  induction hf with
  | field hfound => exact kind_of_findField? hfound
  | initializer _ _ _ ih => exact ih
  | operand _ _ ih => exact ih

/-- If a value is known, the fields that it comes from have initializers. -/
theorem Uses.isSome_initializer (hf : p.Uses scope e f) {n : Nat}
    (h : p.evaluateWithin? n scope e = some v) : f.initializer.isSome := by
  induction hf generalizing n v with
  | field hfound =>
    cases n with
    | zero => cases h
    | succ n =>
      obtain ⟨f', e', hfound', he', -⟩ := evaluateWithin?_reference.mp h
      obtain rfl : _ = f' := Option.some.inj (hfound.symm.trans hfound')
      rw [he']
      rfl
  | initializer hfound he _ ih =>
    cases n with
    | zero => cases h
    | succ n =>
      obtain ⟨f', e', hfound', he', hv⟩ := evaluateWithin?_reference.mp h
      obtain rfl : _ = f' := Option.some.inj (hfound.symm.trans hfound')
      obtain rfl : _ = e' := Option.some.inj (he.symm.trans he')
      exact ih hv
  | operand hmem _ ih =>
    cases n with
    | zero => cases h
    | succ n =>
      obtain ⟨values, hvalues, -⟩ := evaluateWithin?_concat.mp h
      obtain ⟨w, hw⟩ := exists_of_mem_forall₂ hvalues hmem
      exact ih hw

/-- A reference to a field that is initialized with an integer uses this field only. -/
theorem Uses.eq_of_asInt? {path : String} {value : Int} (hf : p.Uses scope (.reference path) f)
    (hfound : p.findField? scope path = some g)
    (hinit : g.initializer.bind Expr.asInt? = some value) : f = g := by
  cases hf with
  | field hfound' => exact Option.some.inj (hfound'.symm.trans hfound)
  | initializer hfound' he hused =>
    obtain rfl := Option.some.inj (hfound'.symm.trans hfound)
    rw [he] at hinit
    cases hused <;> cases hinit

/-! ## The values that fields hold -/

/-- What the fields hold at some moment; of a field without a value, something that is neither an
integer, nor a text, nor a truth value. -/
abbrev State := Declaration → Option Constant

mutual

/-- The value of an expression while the fields hold some values. -/
def valueIn? (p : Project) (state : State) (scope : Option Declaration) : Expr → Option Constant
  | .int value => some (.int value)
  | .text value => some (.text value)
  | .truth value => some (.truth value)
  | .reference path => (p.findField? scope path).bind state
  | .concat operands => (valuesIn? p state scope operands).map joined
  | _ => none

/-- The values of expressions while the fields hold some values. -/
def valuesIn? (p : Project) (state : State) (scope : Option Declaration) :
    List Expr → Option (List Constant)
  | [] => some []
  | e :: es =>
    (valueIn? p state scope e).bind fun v => (valuesIn? p state scope es).map fun vs => v :: vs

end

theorem valuesIn?_eq_some_iff {state : State} {operands : List Expr} {values : List Constant} :
    p.valuesIn? state scope operands = some values ↔
      List.Forall₂ (fun e w => p.valueIn? state scope e = some w) operands values := by
  induction operands generalizing values with
  | nil =>
    rw [valuesIn?, List.forall₂_nil_left_iff]
    exact ⟨fun h => (Option.some.inj h).symm, fun h => congrArg some h.symm⟩
  | cons e es ih =>
    simp only [valuesIn?, List.forall₂_cons_left_iff, ← ih, Option.bind_eq_some_iff,
      Option.map_eq_some_iff]
    constructor
    · rintro ⟨v, hv, vs, hvs, rfl⟩
      exact ⟨v, vs, hv, hvs, rfl⟩
    · rintro ⟨v, vs, hv, hvs, rfl⟩
      exact ⟨v, hv, vs, hvs, rfl⟩

/-- A field holds what its initializer stands for. -/
def HoldsInitial (p : Project) (state : State) (f : Declaration) : Prop :=
  state f = f.initializer.bind (p.valueIn? state (some (p.initializerScope f)))

/-- **A known value is right while the fields that it comes from hold their initial values.** -/
theorem valueIn?_of_evaluateWithin? {state : State} {n : Nat}
    (h : p.evaluateWithin? n scope e = some v)
    (hstate : ∀ f, p.Uses scope e f → p.HoldsInitial state f) :
    p.valueIn? state scope e = some v := by
  induction n generalizing scope e v with
  | zero => cases h
  | succ n ih =>
    cases e with
    | reference path =>
      obtain ⟨f, e, hf, he, hv⟩ := evaluateWithin?_reference.mp h
      have hinit : p.valueIn? state (some (p.initializerScope f)) e = some v :=
        ih hv fun g hg => hstate g (.initializer hf he hg)
      have hholds : state f = some v := by
        rw [hstate f (.field hf), he]
        exact hinit
      rw [valueIn?, hf]
      exact hholds
    | concat operands =>
      obtain ⟨values, hvalues, rfl⟩ := evaluateWithin?_concat.mp h
      have hoperands : p.valuesIn? state scope operands = some values := by
        refine valuesIn?_eq_some_iff.mpr (forall₂_imp_of_mem hvalues ?_)
        intro e he w hw
        exact ih hw fun g hg => hstate g (.operand he hg)
      rw [valueIn?, hoperands]
      rfl
    | int value => exact h
    | text value => exact h
    | truth value => exact h
    | _ => simp [evaluateWithin?] at h

/-! ## States of the program -/

/-- A field that can never hold anything else: it is constant, and so are the fields that its
initializer comes from. -/
def Settled (p : Project) (f : Declaration) : Prop :=
  f.isConstant = true ∧ ∀ e, f.initializer = some e →
    ∀ g, p.Uses (some (p.initializerScope f)) e g → g.isConstant = true

/-- What the fields can hold while the program runs. A settled field holds its initial value, and
any other one may hold anything. -/
def Possible (p : Project) (state : State) : Prop :=
  ∀ f ∈ p.declarations, p.Settled f → p.HoldsInitial state f

/-- If only constants are used, the fields that are used are settled. -/
theorem Uses.settled (hf : p.Uses scope e f) (hall : ∀ g, p.Uses scope e g → g.isConstant = true) :
    p.Settled f :=
  ⟨hall f hf, fun _ he g hg => hall g (hf.trans he hg)⟩

open Classical in
/-- The state in which nothing is known about the fields that are not settled. -/
noncomputable def settledState (p : Project) : State := fun f =>
  if h : p.Settled f ∧ ∃ v e n, f.initializer = some e ∧
      p.evaluateWithin? n (some (p.initializerScope f)) e = some v
  then some (Classical.choose h.2) else none

theorem settledState_eq_some_iff :
    p.settledState f = some v ↔ p.Settled f ∧ ∃ e n, f.initializer = some e ∧
      p.evaluateWithin? n (some (p.initializerScope f)) e = some v := by
  unfold settledState
  split
  · next h =>
    -- the value that is chosen is the only one
    obtain ⟨e, n, he, hn⟩ := Classical.choose_spec h.2
    constructor
    · intro hv
      rw [← Option.some.inj hv]
      exact ⟨h.1, e, n, he, hn⟩
    · rintro ⟨-, e', n', he', hn'⟩
      obtain rfl : e = e' := Option.some.inj (he.symm.trans he')
      rw [evaluateWithin?_unique hn hn']
  · next h =>
    constructor
    · intro hv
      cases hv
    · rintro ⟨hsettled, e, n, he, hn⟩
      exact absurd ⟨hsettled, v, e, n, he, hn⟩ h

/-- What has a value in that state has a known one, at some depth. -/
theorem exists_evaluateWithin?_of_settledState {e : Expr} {v : Constant}
    (h : p.valueIn? p.settledState scope e = some v) :
    ∃ n, p.evaluateWithin? n scope e = some v := by
  match e with
  | .int value => exact ⟨1, h⟩
  | .text value => exact ⟨1, h⟩
  | .truth value => exact ⟨1, h⟩
  | .reference path =>
    rw [valueIn?] at h
    obtain ⟨f, hf, hv⟩ := Option.bind_eq_some_iff.mp h
    obtain ⟨-, e, n, he, hn⟩ := settledState_eq_some_iff.mp hv
    exact ⟨n + 1, evaluateWithin?_reference.mpr ⟨f, e, hf, he, hn⟩⟩
  | .concat operands =>
    rw [valueIn?] at h
    obtain ⟨values, hvalues, rfl⟩ := Option.map_eq_some_iff.mp h
    obtain ⟨n, hn⟩ := exists_common_depth <| forall₂_imp_of_mem (valuesIn?_eq_some_iff.mp hvalues)
      fun e he w hw => exists_evaluateWithin?_of_settledState hw
    exact ⟨n + 1, evaluateWithin?_concat.mpr ⟨values, hn, rfl⟩⟩
  | .null | .literal _ | .classLiteral _ | .array _ | .annot _ | .call .. | .create _ | .lambda
  | .other _ => simp [valueIn?] at h
termination_by sizeOf e
decreasing_by
  have := List.sizeOf_lt_of_mem he
  simp only [Expr.concat.sizeOf_spec]
  omega

/-- What is known from constants alone has its value in that state. -/
theorem valueIn?_settledState {n : Nat} (h : p.evaluateWithin? n scope e = some v)
    (hall : ∀ g, p.Uses scope e g → g.isConstant = true) :
    p.valueIn? p.settledState scope e = some v := by
  induction n generalizing e v with
  | zero => cases h
  | succ n ih =>
    cases e with
    | reference path =>
      obtain ⟨f, e, hf, he, hv⟩ := evaluateWithin?_reference.mp h
      rw [valueIn?, hf]
      exact settledState_eq_some_iff.mpr ⟨Uses.settled (.field hf) hall, e, n, he, hv⟩
    | concat operands =>
      obtain ⟨values, hvalues, rfl⟩ := evaluateWithin?_concat.mp h
      have hoperands : p.valuesIn? p.settledState scope operands = some values := by
        refine valuesIn?_eq_some_iff.mpr (forall₂_imp_of_mem hvalues ?_)
        intro e he w hw
        exact ih hw fun g hg => hall g (.operand he hg)
      rw [valueIn?, hoperands]
      rfl
    | int value => exact h
    | text value => exact h
    | truth value => exact h
    | _ => simp [evaluateWithin?] at h

theorem possible_settledState : p.Possible p.settledState := by
  intro f _ hf
  refine Option.ext fun v => ?_
  rw [settledState_eq_some_iff, Option.bind_eq_some_iff]
  constructor
  · rintro ⟨-, e, n, he, hn⟩
    exact ⟨e, he, valueIn?_settledState hn (hf.2 e he)⟩
  · rintro ⟨e, he, hv⟩
    obtain ⟨n, hn⟩ := exists_evaluateWithin?_of_settledState hv
    exact ⟨hf, e, n, he, hn⟩

/-- What has a value in that state comes from constants. -/
theorem Uses.isConstant_of_settledState (hf : p.Uses scope e f)
    (h : p.valueIn? p.settledState scope e = some v) : f.isConstant = true := by
  induction hf generalizing v with
  | field hfound =>
    rw [valueIn?, hfound] at h
    exact (settledState_eq_some_iff.mp h).1.1
  | initializer hfound he hg _ =>
    rw [valueIn?, hfound] at h
    exact (settledState_eq_some_iff.mp h).1.2 _ he _ hg
  | operand hmem _ ih =>
    rw [valueIn?] at h
    obtain ⟨values, hvalues, -⟩ := Option.map_eq_some_iff.mp h
    obtain ⟨w, hw⟩ := exists_of_mem_forall₂ (valuesIn?_eq_some_iff.mp hvalues) hmem
    exact ih hw

/-- **A known value is the value in every state if and only if it comes from constants alone.** -/
theorem forall_valueIn?_iff {n : Nat} (h : p.evaluateWithin? n scope e = some v) :
    (∀ state, p.Possible state → p.valueIn? state scope e = some v) ↔
      ∀ f, p.Uses scope e f → f.isConstant = true := by
  constructor
  · intro hall f hf
    exact hf.isConstant_of_settledState (hall p.settledState possible_settledState)
  · intro hall state hstate
    refine valueIn?_of_evaluateWithin? h ?_
    intro f hf
    exact hstate f (mem_declarations_iff.mpr hf.kind_eq.2) (hf.settled hall)

end Project

/-! ## The version field of a database -/

namespace Database

variable {p : Project} {room : RoomSettings} {cls : Declaration}

theorem isSome_versionField?_iff :
    (versionField? p room cls).isSome = true ↔
      ∃ f ∈ p.fieldsOf cls, f.name = room.versionField := by
  simp [versionField?, List.find?_isSome]

theorem isSome_of_mem_fieldMissing {field : Option Declaration} {finding : Finding}
    (h : finding ∈ fieldMissing room cls field) : field.isSome = false := by
  unfold fieldMissing at h
  split at h
  · next hnone => simpa using hnone
  · cases h

theorem exists_mem_fieldMissing {field : Option Declaration} (h : field.isSome = false) :
    ∃ finding ∈ fieldMissing room cls field, finding.rule = .versionFieldMissing := by
  unfold fieldMissing
  rw [if_pos (by simpa using h)]
  exact ⟨_, List.mem_singleton_self _, rfl⟩

/-- **A database is reported for its version field exactly if there is no field of that name** in
the class or in a companion object. -/
theorem reports_fieldMissing_iff (htype : cls.isType = true) :
    (∃ finding ∈ (inspect p room cls).findings, finding.rule = .versionFieldMissing) ↔
      (versionField? p room cls).isSome = false := by
  -- no other part of the report has this rule
  cases ha : cls.annotationNamed? room.databaseAnnotation with
  | none =>
    have hfindings : (inspect p room cls).findings =
        unannotated cls none ++ fieldMissing room cls (versionField? p room cls) := by
      simp [inspect, ha]
    rw [hfindings]
    constructor
    · rintro ⟨finding, hf, hrule⟩
      rcases List.mem_append.mp hf with hf | hf
      · cases hrule.symm.trans ((sole_unannotated none).rule_eq hf)
      · exact isSome_of_mem_fieldMissing hf
    · intro hnone
      obtain ⟨finding, hf, hrule⟩ := exists_mem_fieldMissing hnone
      exact ⟨finding, List.mem_append_right _ hf, hrule⟩
  | some a =>
    obtain ⟨annotated, field, rule, found, hrules, hsole, -, hfindings⟩ :=
      exists_inspect_annotated (p := p) htype ha
    rw [hfindings]
    simp only [List.mem_append]
    constructor
    · rintro ⟨finding, (((hf | hf) | hf) | hf) | hf, hrule⟩
      · cases hrule.symm.trans ((sole_unannotated (some a)).rule_eq hf)
      · exact isSome_of_mem_fieldMissing hf
      · cases hrule.symm.trans ((sole_notExported a).rule_eq hf)
      · cases hrule.symm.trans ((sole_disagreeing _ annotated field).rule_eq hf)
      · rw [← hsole.rule_eq hf, hrule] at hrules
        simp at hrules
    · intro hnone
      obtain ⟨finding, hf, hrule⟩ := exists_mem_fieldMissing hnone
      exact ⟨finding, .inl (.inl (.inl (.inr hf))), hrule⟩

end Database

namespace Project

/-- **The initial value of a field is taken whether the field is constant or not.** Let the value of
an expression be known. It comes from fields that the project declares, by way of their
initializers. It is the value of the expression in every state of the program if and only if all
these fields are constant. A database is not reported for its version field if and only if
the class, or a companion object of it, has a field of that name, be it constant or not. -/
theorem value_fixed_iff_constant {p : Project} {scope : Option Declaration} {e : Expr}
    {v : Constant}
    (h : p.evaluate? scope e = some v) :
    (∀ f, p.Uses scope e f →
        f ∈ p.declarations ∧ f.kind = .field ∧ f.initializer.isSome = true) ∧
      ((∀ state, p.Possible state → p.valueIn? state scope e = some v) ↔
        ∀ f, p.Uses scope e f → f.isConstant = true) ∧
      ∀ (room : RoomSettings) (cls : Declaration), cls.isType = true →
        ((∀ finding ∈ (Database.inspect p room cls).findings, finding.rule ≠ .versionFieldMissing) ↔
          ∃ f ∈ p.fieldsOf cls, f.name = room.versionField) := by
  refine ⟨?_, forall_valueIn?_iff h, ?_⟩
  · intro f hf
    exact ⟨mem_declarations_iff.mpr hf.kind_eq.2, hf.kind_eq.1, hf.isSome_initializer h⟩
  · intro room cls htype
    rw [← Database.isSome_versionField?_iff, ← not_iff_not]
    simpa using @Database.reports_fieldMissing_iff p room cls htype

/-- A class whose version field is constant. -/
def constantVersion : Project :=
  ({} : Project).merge
    (Java.outline ⟨"A.java"⟩ "class A \x7b\n    static final int X = 3;\n\x7d\n")

/-- The value of the constant is the same in every state. -/
theorem value_fixed_iff_constant_version :
    constantVersion.evaluate? constantVersion.types.head? (.reference "X") = some (.int 3) ∧
      ∀ state, constantVersion.Possible state →
        constantVersion.valueIn? state constantVersion.types.head? (.reference "X") =
          some (.int 3) := by
  have hvalue : constantVersion.evaluate? constantVersion.types.head? (.reference "X") =
      some (.int 3) := by
    decide +kernel
  have hfield : ((constantVersion.findField? constantVersion.types.head? "X").any fun f =>
      f.isConstant && f.initializer.bind Expr.asInt? == some 3) = true := by
    decide +kernel
  obtain ⟨g, hfound, hg⟩ := (Option.any_eq_true _ _).mp hfield
  obtain ⟨hconstant, hinit⟩ := Bool.and_eq_true_iff.mp hg
  refine ⟨hvalue, (value_fixed_iff_constant hvalue).2.1.mpr ?_⟩
  intro f hf
  rw [hf.eq_of_asInt? hfound (beq_iff_eq.mp hinit)]
  exact hconstant

/-- A class whose version field can be assigned to. -/
def reassignableVersion : Project :=
  ({} : Project).merge
    (Java.outline ⟨"A.java"⟩ "class A \x7b\n    static int X = 3;\n\x7d\n")

/-- **Not only constants are evaluated.** A field without `final` counts with its initial value, and
a class with such a version field is not reported for it. -/
theorem reassignable_field_evaluated :
    (∃ f, reassignableVersion.Uses reassignableVersion.types.head? (.reference "X") f ∧
        f.isConstant = false) ∧
      reassignableVersion.evaluate? reassignableVersion.types.head? (.reference "X") =
        some (.int 3) ∧
      ∃ cls ∈ reassignableVersion.types,
        (∃ f, Database.versionField? reassignableVersion { versionField := "X" } cls = some f ∧
          f.isConstant = false) ∧
        (Database.inspect reassignableVersion { versionField := "X" } cls).findings.map
          Finding.rule = [.databaseUnannotated] := by
  have hfield : ((reassignableVersion.findField? reassignableVersion.types.head? "X").any fun f =>
      !f.isConstant) = true := by
    decide +kernel
  have hversion : (reassignableVersion.types.any fun cls =>
      ((Database.versionField? reassignableVersion { versionField := "X" } cls).any fun f =>
        !f.isConstant) &&
      (Database.inspect reassignableVersion { versionField := "X" } cls).findings.map
        Finding.rule == [.databaseUnannotated]) = true := by
    decide +kernel
  obtain ⟨f, hfound, hf⟩ := (Option.any_eq_true _ _).mp hfield
  obtain ⟨cls, hcls, hversion⟩ := List.any_eq_true.mp hversion
  obtain ⟨hversion, hrules⟩ := Bool.and_eq_true_iff.mp hversion
  obtain ⟨g, hg, hconstant⟩ := (Option.any_eq_true _ _).mp hversion
  refine ⟨⟨f, .field hfound, by simpa using hf⟩, by decide +kernel, cls, hcls, ⟨g, hg, ?_⟩, ?_⟩
  · simpa using hconstant
  · exact beq_iff_eq.mp hrules

end Project

end AdLint
