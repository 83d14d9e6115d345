import AdLint.Proofs.Evaluation
import Mathlib.Logic.Relation

/-!
# Derivations of values

What an expression stands for is given by rules. A literal stands for itself, a reference for what
the initializer of its field stands for in the scope of that field, and a concatenation for the text
of what its operands stand for. A derivation is a tree of these rules, of any size. The evaluation
looks for one within a bound, and it finds it if no expression in the tree stands inside more than
eight references and concatenations.

This is not quite the number of rules for references and concatenations on a way through the tree. A
concatenation without operands ends such a way without a literal below it, so that one more rule
fits there.

## Main definitions

* `Project.Derivation p scope e v`: a derivation that `e` stands for `v`
* `Project.Derivation.nesting`: how many references and concatenations stand inside one another
* `Project.DependsOn`: the evaluation of an expression needs that of another one

## Main results

* `Project.evaluateWithin?_eq_some_iff`: the evaluation finds the derivations of bounded depth
* `Project.evaluateWithin?_eq_none_of_cycle`: what depends on itself has no value at any depth
* `Project.evaluate?_iff_derivation`: which values are known
-/

namespace AdLint.Project

open Relation (ReflTransGen TransGen)

/-! ## Rules -/

mutual

/-- A derivation that an expression stands for a value in a scope. -/
inductive Derivation (p : Project) : Option Declaration → Expr → Constant → Type
  | int {scope : Option Declaration} (value : Int) : Derivation p scope (.int value) (.int value)
  | text {scope : Option Declaration} (value : String) :
      Derivation p scope (.text value) (.text value)
  | truth {scope : Option Declaration} (value : Bool) :
      Derivation p scope (.truth value) (.truth value)
  | reference {scope : Option Declaration} {path : String} {f : Declaration} {e : Expr}
      {v : Constant}
      (hf : p.findField? scope path = some f) (he : f.initializer = some e)
      (d : Derivation p (some (p.initializerScope f)) e v) : Derivation p scope (.reference path) v
  | concat {scope : Option Declaration} {operands : List Expr} {values : List Constant}
      (ds : Derivations p scope operands values) :
      Derivation p scope (.concat operands) (joined values)

/-- Derivations for some expressions, one after the other. -/
inductive Derivations (p : Project) : Option Declaration → List Expr → List Constant → Type
  | nil {scope : Option Declaration} : Derivations p scope [] []
  | cons {scope : Option Declaration} {e : Expr} {es : List Expr} {v : Constant}
      {vs : List Constant}
      (d : Derivation p scope e v) (ds : Derivations p scope es vs) :
      Derivations p scope (e :: es) (v :: vs)

end

mutual

/-- How many references and concatenations stand inside one another. A concatenation without
operands counts for `empty`. -/
def Derivation.nesting {p : Project} (empty : Nat) {scope : Option Declaration} {e : Expr}
    {v : Constant} :
    Derivation p scope e v → Nat
  | .int _ | .text _ | .truth _ => 0
  | .reference _ _ d => d.nesting empty + 1
  | .concat ds => ds.nesting empty

/-- The same for a concatenation of the expressions. -/
def Derivations.nesting {p : Project} (empty : Nat) {scope : Option Declaration} {es : List Expr}
    {vs : List Constant} : Derivations p scope es vs → Nat
  | .nil => empty
  | .cons d ds => max (d.nesting empty + 1) (ds.nesting empty)

end

variable {p : Project} {scope : Option Declaration} {e : Expr} {v : Constant}

/-! ## Derivations of bounded depth -/

mutual

/-- The evaluation finds a derivation if it goes deep enough. -/
theorem Derivation.evaluateWithin?_eq {n : Nat} :
    ∀ {scope : Option Declaration} {e : Expr} {v : Constant} (d : Derivation p scope e v),
      d.nesting 0 < n → p.evaluateWithin? n scope e = some v
  | _, _, _, .int _, h | _, _, _, .text _, h | _, _, _, .truth _, h => by
    obtain ⟨m, rfl⟩ := Nat.exists_eq_add_one_of_ne_zero (Nat.ne_of_gt h)
    rfl
  | _, _, _, .reference hf he d, h => by
    rw [Derivation.nesting] at h
    obtain ⟨m, rfl⟩ := Nat.exists_eq_add_one_of_ne_zero (Nat.ne_zero_of_lt h)
    exact evaluateWithin?_reference.mpr ⟨_, _, hf, he,
      d.evaluateWithin?_eq (Nat.lt_of_succ_lt_succ h)⟩
  | _, _, _, .concat ds, h => by
    rw [Derivation.nesting] at h
    obtain ⟨m, rfl⟩ := Nat.exists_eq_add_one_of_ne_zero (Nat.ne_zero_of_lt h)
    exact evaluateWithin?_concat.mpr ⟨_, ds.forall₂_evaluateWithin? (Nat.le_of_lt_succ h), rfl⟩

theorem Derivations.forall₂_evaluateWithin? {n : Nat} :
    ∀ {scope : Option Declaration} {es : List Expr} {vs : List Constant}
      (ds : Derivations p scope es vs),
      ds.nesting 0 ≤ n → List.Forall₂ (fun e w => p.evaluateWithin? n scope e = some w) es vs
  | _, _, _, .nil, _ => .nil
  | _, _, _, .cons d ds, h => by
    rw [Derivations.nesting] at h
    exact .cons (d.evaluateWithin?_eq (Nat.le_trans (Nat.le_max_left _ _) h))
      (ds.forall₂_evaluateWithin? (Nat.le_trans (Nat.le_max_right _ _) h))

end

theorem exists_derivations {n : Nat} {es : List Expr} {vs : List Constant}
    (h : List.Forall₂ (fun e w => ∃ d : Derivation p scope e w, d.nesting 0 < n) es vs) :
    ∃ ds : Derivations p scope es vs, ds.nesting 0 ≤ n := by
  induction h with
  | nil => exact ⟨.nil, Nat.zero_le n⟩
  | cons hd _ ih =>
    obtain ⟨d, hd⟩ := hd
    obtain ⟨ds, hds⟩ := ih
    exact ⟨.cons d ds, Nat.max_le.mpr ⟨hd, hds⟩⟩

/-- What the evaluation finds has a derivation that goes no deeper. -/
theorem exists_derivation {n : Nat} (h : p.evaluateWithin? n scope e = some v) :
    ∃ d : Derivation p scope e v, d.nesting 0 < n := by
  induction n generalizing scope e v with
  | zero => cases h
  | succ n ih =>
    cases e with
    | int value =>
      cases h
      exact ⟨.int value, Nat.succ_pos n⟩
    | text value =>
      cases h
      exact ⟨.text value, Nat.succ_pos n⟩
    | truth value =>
      cases h
      exact ⟨.truth value, Nat.succ_pos n⟩
    | reference path =>
      obtain ⟨f, e, hf, he, hv⟩ := evaluateWithin?_reference.mp h
      obtain ⟨d, hd⟩ := ih hv
      exact ⟨.reference hf he d, Nat.succ_lt_succ hd⟩
    | concat operands =>
      -- on the last level only a concatenation without operands is left, and its nesting is 0
      obtain ⟨values, hvalues, rfl⟩ := evaluateWithin?_concat.mp h
      obtain ⟨ds, hds⟩ := exists_derivations (hvalues.imp fun _ _ hw => ih hw)
      exact ⟨.concat ds, Nat.lt_succ_of_le hds⟩
    | _ => cases h

/-- **The evaluation finds exactly the derivations of bounded depth.** -/
theorem evaluateWithin?_eq_some_iff {n : Nat} :
    p.evaluateWithin? n scope e = some v ↔ ∃ d : Derivation p scope e v, d.nesting 0 < n :=
  ⟨exists_derivation, fun ⟨d, hd⟩ => d.evaluateWithin?_eq hd⟩

/-! ## Expressions that depend on themselves -/

/-- The value of an expression in a scope comes from that of another one: a reference needs the
initializer of its field, and a concatenation each of its operands. -/
inductive DependsOn (p : Project) : Option Declaration × Expr → Option Declaration × Expr → Prop
  | initializer {scope : Option Declaration} {path : String} {f : Declaration} {e : Expr}
      (hf : p.findField? scope path = some f) (he : f.initializer = some e) :
      DependsOn p (scope, .reference path) (some (p.initializerScope f), e)
  | operand {scope : Option Declaration} {operands : List Expr} {e : Expr} (he : e ∈ operands) :
      DependsOn p (scope, .concat operands) (scope, e)

variable {x y : Option Declaration × Expr}

/-- What a value comes from is found at a smaller depth. -/
theorem DependsOn.exists_evaluateWithin? (hxy : p.DependsOn x y) {n : Nat}
    (h : p.evaluateWithin? n x.1 x.2 = some v) :
    ∃ m < n, ∃ w, p.evaluateWithin? m y.1 y.2 = some w := by
  cases n with
  | zero => cases h
  | succ n =>
    refine ⟨n, Nat.lt_succ_self n, ?_⟩
    cases hxy with
    | initializer hf he =>
      obtain ⟨f, e, hf', he', hv⟩ := evaluateWithin?_reference.mp h
      obtain rfl := Option.some.inj (hf.symm.trans hf')
      obtain rfl := Option.some.inj (he.symm.trans he')
      exact ⟨v, hv⟩
    | operand he =>
      obtain ⟨values, hvalues, -⟩ := evaluateWithin?_concat.mp h
      exact exists_of_mem_forall₂ hvalues he

theorem exists_evaluateWithin?_of_transGen (hxy : TransGen p.DependsOn x y) {n : Nat}
    (h : p.evaluateWithin? n x.1 x.2 = some v) :
    ∃ m < n, ∃ w, p.evaluateWithin? m y.1 y.2 = some w := by
  induction hxy with
  | single hxy => exact hxy.exists_evaluateWithin? h
  | tail _ hyz ih =>
    obtain ⟨m, hm, w, hw⟩ := ih
    obtain ⟨k, hk, hz⟩ := hyz.exists_evaluateWithin? hw
    exact ⟨k, Nat.lt_trans hk hm, hz⟩

/-- **What depends on an expression that depends on itself has no value,** however deep the
evaluation goes. -/
theorem evaluateWithin?_eq_none_of_cycle (hxy : ReflTransGen p.DependsOn x y)
    (hcycle : TransGen p.DependsOn y y) (n : Nat) : p.evaluateWithin? n x.1 x.2 = none := by
  -- a value would be found at ever smaller depths, once around the cycle after the other
  induction n using Nat.strongRecOn generalizing x with
  | ind n ih =>
    refine Option.eq_none_iff_forall_ne_some.mpr fun v hv => ?_
    obtain ⟨m, hm, w, hw⟩ := exists_evaluateWithin?_of_transGen (.trans_right hxy hcycle) hv
    rw [ih m hm .refl] at hw
    cases hw

/-! ## Known values -/

mutual

/-- A concatenation without operands makes a difference of at most one. -/
theorem Derivation.nesting_one {scope : Option Declaration} {e : Expr} {v : Constant} :
    ∀ d : Derivation p scope e v, d.nesting 0 ≤ d.nesting 1 ∧ d.nesting 1 ≤ d.nesting 0 + 1
  | .int _ | .text _ | .truth _ => ⟨Nat.le_refl 0, Nat.zero_le 1⟩
  | .reference _ _ d => by
    have hd := d.nesting_one
    rw [Derivation.nesting, Derivation.nesting]
    omega
  | .concat ds => ds.nesting_one

theorem Derivations.nesting_one {scope : Option Declaration} {es : List Expr} {vs : List Constant} :
    ∀ ds : Derivations p scope es vs, ds.nesting 0 ≤ ds.nesting 1 ∧ ds.nesting 1 ≤ ds.nesting 0 + 1
  | .nil => ⟨Nat.zero_le 1, Nat.le_refl 1⟩
  | .cons d ds => by
    have hd := d.nesting_one
    have hds := ds.nesting_one
    rw [Derivations.nesting, Derivations.nesting]
    omega

end

/-- **A value is known if and only if it has a derivation with at most eight references and
concatenations inside one another,** where a concatenation without operands does not count. So a
known value is an integer, a text or a truth value, a bound that is greater finds the same value,
and an expression that depends on itself has none. -/
theorem evaluate?_iff_derivation (p : Project) :
    (∀ (scope : Option Declaration) (e : Expr) (v : Constant),
        p.evaluate? scope e = some v ↔ ∃ d : Derivation p scope e v, d.nesting 0 ≤ 8) ∧
      (∀ (scope : Option Declaration) (e : Expr) (v : Constant) (d : Derivation p scope e v),
        d.nesting 0 ≤ d.nesting 1 ∧ d.nesting 1 ≤ d.nesting 0 + 1) ∧
      (∀ (scope : Option Declaration) (e : Expr) (v : Constant), p.evaluate? scope e = some v →
        (∃ a, v.toExpr = .int a) ∨ (∃ s, v.toExpr = .text s) ∨ ∃ b, v.toExpr = .truth b) ∧
      (∀ (n m : Nat) (scope : Option Declaration) (e : Expr) (v : Constant), n ≤ m →
        p.evaluateWithin? n scope e = some v → p.evaluateWithin? m scope e = some v) ∧
      ∀ x y : Option Declaration × Expr, ReflTransGen p.DependsOn x y → TransGen p.DependsOn y y →
        ∀ n, p.evaluateWithin? n x.1 x.2 = none := by
  refine ⟨?_, fun _ _ _ => Derivation.nesting_one, ?_, ?_,
    fun x y => evaluateWithin?_eq_none_of_cycle⟩
  · intro scope e v
    rw [evaluate?, evaluateWithin?_eq_some_iff]
    exact exists_congr fun d => Nat.lt_succ_iff
  · intro scope e v _
    cases v with
    | int a => exact .inl ⟨a, rfl⟩
    | text s => exact .inr (.inl ⟨s, rfl⟩)
    | truth b => exact .inr (.inr ⟨b, rfl⟩)
  · intro n m scope e v hnm hv
    exact evaluateWithin?_mono hnm hv

/-- A field that stands in no declaration. -/
def topField (start : Nat) (name : String) (initializer : Expr) : Declaration where
  id := ⟨⟨"A.kt"⟩, start, start + 1⟩
  name := name
  kind := .field
  location := ⟨⟨"A.kt"⟩, 1, start + 1, start, start + 1⟩
  language := .kotlin
  initializer := some initializer

/-- A field with a text that is made with another field, and two fields that are defined through
each other. -/
def linkedFields : Project :=
  [topField 0 "X" (.concat [.text "v", .reference "Y"]), topField 2 "Y" (.int 2),
    topField 4 "P" (.reference "Q"), topField 6 "Q" (.reference "P")].foldl addDeclaration {}

/-- The text is known, with any greater bound too, and the two fields have no value. -/
theorem evaluate?_iff_derivation_linkedFields :
    linkedFields.evaluate? (some (topField 2 "Y" (.int 2))) (.reference "X") = some (.text "v2") ∧
      linkedFields.evaluateWithin? 20 (some (topField 2 "Y" (.int 2))) (.reference "X") =
        some (.text "v2") ∧
      linkedFields.evaluate? (some (topField 2 "Y" (.int 2))) (.concat [.int 1, .reference "P"]) =
        none := by
  obtain ⟨hknown, -, -, hgreater, hcycle⟩ := evaluate?_iff_derivation linkedFields
  have hX : linkedFields.evaluate? (some (topField 2 "Y" (.int 2))) (.reference "X") =
      some (.text "v2") := by
    have hjoined : joined [.text "v", .int 2] = .text "v2" := by decide +kernel
    rw [← hjoined, hknown]
    exact ⟨.reference (f := topField 0 "X" _) rfl rfl
      (.concat
        (.cons (.text "v") (.cons (.reference (f := topField 2 "Y" _) rfl rfl (.int 2)) .nil))),
      by decide⟩
  refine ⟨hX, hgreater 9 20 _ _ _ (by decide) hX, ?_⟩
  -- each of the two fields is needed for the other one
  have hP :
      ∀ scope, linkedFields.findField? (some scope) "P" = some (topField 4 "P" (.reference "Q")) →
      linkedFields.DependsOn (some scope, .reference "P")
        (some (topField 4 "P" (.reference "Q")), .reference "Q") :=
    fun scope hfound => .initializer (f := topField 4 "P" (.reference "Q")) hfound rfl
  have hQ : linkedFields.DependsOn (some (topField 4 "P" (.reference "Q")), .reference "Q")
      (some (topField 6 "Q" (.reference "P")), .reference "P") :=
    .initializer (f := topField 6 "Q" (.reference "P")) rfl rfl
  refine hcycle (_, .concat [.int 1, .reference "P"])
    (some (topField 4 "P" (.reference "Q")), .reference "Q") ?_ ?_ 9
  · exact .tail (.single (.operand (List.mem_cons_of_mem _ List.mem_cons_self))) (hP _ rfl)
  · exact .tail (.single hQ) (hP _ rfl)

/-- Concatenations inside one another, of which the innermost one has no operands. -/
def hollow : Nat → Expr
  | 0 => .concat []
  | n + 1 => .concat [hollow n]

theorem nesting_hollow {n : Nat} (d : Derivation p scope (hollow n) v) : d.nesting 1 = n + 1 := by
  induction n generalizing v with
  | zero =>
    cases d with
    | concat ds =>
      cases ds
      rfl
  | succ n ih =>
    cases d with
    | concat ds =>
      cases ds with
      | cons d ds =>
        cases ds
        change max (d.nesting 1 + 1) 1 = n + 1 + 1
        rw [ih d]
        omega

/-- **A concatenation without operands is known one step deeper.** Nine concatenations stand inside
one another, which takes nine rules in every derivation, and the value is known. -/
theorem known_inside_eight_concatenations :
    ({} : Project).evaluate? none (hollow 8) = some (.text "") ∧
      ∀ (v : Constant) (d : Derivation {} none (hollow 8) v), ¬ d.nesting 1 ≤ 8 := by
  refine ⟨by decide +kernel, ?_⟩
  intro v d
  rw [nesting_hollow d]
  decide

end AdLint.Project
