import AdLint.Project.Constant
import AdLint.Proofs.Record
import Mathlib.Data.List.Forall2

/-!
# The values of expressions

An expression that is a reference has the value of the initializer of the field that it denotes, and
a concatenation the text of the values of its operands. The bound on the depth of both never changes
a value that is known: it can only leave more of them unknown.

## Main results

* `Project.evaluateWithin?_reference`, `Project.evaluateWithin?_concat`: when the value of a
  reference and of a concatenation is known
* `Project.evaluateWithin?_mono`: a value that is known stays the same with a greater bound
* `Project.kind_of_findField?`: a reference denotes a field that the project declares
-/

namespace AdLint

/-- All answers are known if and only if there is one for each question. -/
theorem mapM_eq_some_iff {α β : Type} {f : α → Option β} {as : List α} {bs : List β} :
    as.mapM f = some bs ↔ List.Forall₂ (fun a b => f a = some b) as bs := by
  induction as generalizing bs with
  | nil =>
    rw [List.mapM_nil, List.forall₂_nil_left_iff]
    exact ⟨fun h => (Option.some.inj h).symm, fun h => congrArg some h.symm⟩
  | cons a as ih =>
    simp only [List.mapM_cons, List.forall₂_cons_left_iff, ← ih, Option.bind_eq_bind,
      Option.bind_eq_some_iff, Option.pure_def, Option.some.injEq]
    constructor
    · rintro ⟨b, hb, bs', hbs', rfl⟩
      exact ⟨b, bs', hb, hbs', rfl⟩
    · rintro ⟨b, bs', hb, hbs', rfl⟩
      exact ⟨b, hb, bs', hbs', rfl⟩

/-- Each member of the first list has its partner in the second. -/
theorem exists_of_mem_forall₂ {α β : Type} {R : α → β → Prop} {as : List α} {bs : List β} {a : α}
    (h : List.Forall₂ R as bs) (ha : a ∈ as) : ∃ b, R a b := by
  induction h with
  | nil => cases ha
  | cons hab _ ih =>
    rcases List.mem_cons.mp ha with rfl | ha
    · exact ⟨_, hab⟩
    · exact ih ha

/-- What follows from a relation for the members of a list holds of all pairs. -/
theorem forall₂_imp_of_mem {α β : Type} {R S : α → β → Prop} {as : List α} {bs : List β}
    (h : List.Forall₂ R as bs) (himp : ∀ a ∈ as, ∀ b, R a b → S a b) : List.Forall₂ S as bs := by
  have hmem := (List.forall₂_and_left as bs).mpr ⟨himp, h⟩
  exact hmem.imp fun a b hab => hab.1 b hab.2

namespace Project

variable {p : Project} {scope : Option Declaration} {path : String} {f : Declaration} {v : Constant}

/-! ## Single steps -/

/-- The text of some values one after the other. -/
def joined (values : List Constant) : Constant := .text (String.join (values.map Constant.shown))

/-- A literal has no other value than its own. -/
theorem eq_of_evaluateWithin?_toExpr {n : Nat} {c : Constant}
    (h : p.evaluateWithin? n scope c.toExpr = some v) : v = c := by
  cases n with
  | zero => cases h
  | succ n => cases c <;> exact (Option.some.inj h).symm

theorem evaluateWithin?_reference {n : Nat} :
    p.evaluateWithin? (n + 1) scope (.reference path) = some v ↔
      ∃ f e, p.findField? scope path = some f ∧ f.initializer = some e ∧
        p.evaluateWithin? n (some (p.initializerScope f)) e = some v := by
  simp only [evaluateWithin?, Option.bind_eq_bind, Option.bind_eq_some_iff]
  constructor
  · rintro ⟨f, hf, e, he, hv⟩
    exact ⟨f, e, hf, he, hv⟩
  · rintro ⟨f, e, hf, he, hv⟩
    exact ⟨f, hf, e, he, hv⟩

theorem evaluateWithin?_concat {n : Nat} {operands : List Expr} :
    p.evaluateWithin? (n + 1) scope (.concat operands) = some v ↔
      ∃ values, List.Forall₂ (fun e w => p.evaluateWithin? n scope e = some w) operands values ∧
        joined values = v := by
  simp only [evaluateWithin?, Option.bind_eq_bind, Option.bind_eq_some_iff, mapM_eq_some_iff,
    Option.some.injEq]
  rfl

/-- **A value that is known stays the same with a greater bound.** -/
theorem evaluateWithin?_mono {n m : Nat} (hnm : n ≤ m) {e : Expr}
    (h : p.evaluateWithin? n scope e = some v) : p.evaluateWithin? m scope e = some v := by
  induction n generalizing m scope e v with
  | zero => cases h
  | succ n ih =>
    obtain ⟨m, rfl⟩ : ∃ k, m = k + 1 := ⟨m - 1, by omega⟩
    have hnm : n ≤ m := by omega
    cases e with
    | reference path =>
      obtain ⟨f, e, hf, he, hv⟩ := evaluateWithin?_reference.mp h
      exact evaluateWithin?_reference.mpr ⟨f, e, hf, he, ih hnm hv⟩
    | concat operands =>
      obtain ⟨values, hvalues, rfl⟩ := evaluateWithin?_concat.mp h
      refine evaluateWithin?_concat.mpr ⟨values, hvalues.imp ?_, rfl⟩
      intro e w hw
      exact ih hnm hw
    | int value => exact h
    | text value => exact h
    | truth value => exact h
    | _ => simp [evaluateWithin?] at h

/-- No two bounds give different values. -/
theorem evaluateWithin?_unique {n m : Nat} {e : Expr} {w : Constant}
    (hv : p.evaluateWithin? n scope e = some v) (hw : p.evaluateWithin? m scope e = some w) :
    v = w := by
  have hv := evaluateWithin?_mono (Nat.le_max_left n m) hv
  have hw := evaluateWithin?_mono (Nat.le_max_right n m) hw
  exact Option.some.inj (hv.symm.trans hw)

/-- If each of some values is known at some depth, all are known at one depth. -/
theorem exists_common_depth {operands : List Expr} {values : List Constant}
    (h : List.Forall₂ (fun e w => ∃ n, p.evaluateWithin? n scope e = some w) operands values) :
    ∃ n, List.Forall₂ (fun e w => p.evaluateWithin? n scope e = some w) operands values := by
  induction h with
  | nil => exact ⟨0, .nil⟩
  | cons hv _ ih =>
    obtain ⟨n, hn⟩ := hv
    obtain ⟨m, hm⟩ := ih
    -- the greater of the two depths is enough for both
    refine ⟨max n m, .cons (evaluateWithin?_mono (Nat.le_max_left n m) hn) (hm.imp ?_)⟩
    intro e w hw
    exact evaluateWithin?_mono (Nat.le_max_right n m) hw

/-! ## The field that a reference denotes -/

theorem kind_of_mem_fieldsOf {owner : Declaration} (h : f ∈ p.fieldsOf owner) :
    f.kind = .field ∧ p.find? f.id = some f := by
  obtain ⟨child, hchild, hf⟩ := List.mem_flatMap.mp h
  split at hf
  · next hkind =>
    obtain rfl := List.mem_singleton.mp hf
    exact ⟨hkind, find?_of_mem_children hchild⟩
  · obtain ⟨hf, hkind⟩ := List.mem_filter.mp hf
    exact ⟨beq_iff_eq.mp hkind, find?_of_mem_children hf⟩
  · cases hf

theorem mem_fieldsOf_of_memberField? {owner : Declaration} {name : String}
    (h : p.memberField? owner name = some f) : f ∈ p.fieldsOf owner ∧ f.name = name := by
  unfold memberField? at h
  split at h
  · have hname := List.find?_some h
    exact ⟨List.mem_of_find?_eq_some h, beq_iff_eq.mp hname⟩
  · cases h

/-- **A reference denotes a field of the project.** Nothing else is asked of the field. -/
theorem kind_of_findField? (h : p.findField? scope path = some f) :
    f.kind = .field ∧ p.find? f.id = some f := by
  have hmember : ∀ {owners : List Declaration} {name : String},
      (owners.findSome? fun d => p.memberField? d name) = some f →
        f.kind = .field ∧ p.find? f.id = some f := by
    intro owners name hfound
    obtain ⟨owner, -, howner⟩ := List.exists_of_findSome?_eq_some hfound
    exact kind_of_mem_fieldsOf (mem_fieldsOf_of_memberField? howner).1
  unfold findField? at h
  split at h
  · exact hmember h
  · obtain ⟨scope, -, h⟩ := Option.bind_eq_some_iff.mp h
    rcases Option.or_eq_some_iff.mp h with h | ⟨-, h⟩
    · exact hmember h
    · have hkind := List.find?_some h
      simp only [Bool.and_eq_true, beq_iff_eq] at hkind
      exact ⟨hkind.1.1, find?_of_mem_current (List.mem_of_find?_eq_some h)⟩

end Project

end AdLint
