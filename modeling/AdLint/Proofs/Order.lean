import AdLint.Finding
import Mathlib.Data.List.Basic

/-!
# The orders of paths and findings, and stable sorting

Paths are ordered component by component, and findings by path, line, column and rule. Both orders
are lexicographic, so that their laws come from the laws of the parts. Neither is antisymmetric:
`a//A` and `a/A` compare as equal, and so do two findings of one rule at one place. What a sort by
such an order does with equals has to be said, and `IsStableSort` says it. A stable sort is
determined by its input, and so it commutes with a filter.

## Main definitions

* `IsStableSort cmp xs ys`: `ys` is the stable sort of `xs`

## Main results

* `Path.compare_eq_iff`: paths compare as equal exactly when they have the same components
* `IsStableSort.unique`, `IsStableSort.mergeSort`: there is one stable sort, and merge sort gives it
* `filter_mergeSort`: sorting commutes with a filter
-/

namespace AdLint

open Std

/-! ## Paths -/

/-- A lawful order compares the images under any function lawfully. -/
theorem transCmp_on {α β : Type} (cmp : β → β → Ordering) [TransCmp cmp] (f : α → β) :
    TransCmp fun a b => cmp (f a) (f b) where
  eq_swap := OrientedCmp.eq_swap
  isLE_trans := TransCmp.isLE_trans

namespace Component

/-- The name of a component, empty for those without one. -/
def nameOrEmpty : Component → String
  | named name => name
  | _ => ""

theorem compare_eq_lex :
    Component.compare = compareLex (compareOn rank) (compareOn nameOrEmpty) := by
  funext a b
  cases a <;> cases b <;> rfl

instance : TransCmp Component.compare := by
  rw [compare_eq_lex]
  infer_instance

theorem compare_eq_iff {a b : Component} : a.compare b = .eq ↔ a = b := by
  cases a <;> cases b <;> simp [Component.compare, rank]

instance : LawfulEqCmp Component.compare where
  eq_of_compare := compare_eq_iff.mp

end Component

namespace Path

theorem compareComponents_eq_lex : compareComponents = List.compareLex Component.compare := by
  funext as bs
  induction as generalizing bs with
  | nil => cases bs <;> rfl
  | cons a as ih =>
    cases bs with
    | nil => rfl
    | cons b bs => rw [compareComponents, ih, List.compareLex_cons_cons]

theorem compare_eq_lex :
    Path.compare = fun p q => List.compareLex Component.compare p.components q.components := by
  funext p q
  rw [Path.compare, compareComponents_eq_lex]

instance : TransCmp Path.compare := by
  rw [compare_eq_lex]
  exact transCmp_on _ components

theorem compare_eq_iff {p q : Path} : p.compare q = .eq ↔ p.components = q.components := by
  rw [compare_eq_lex]
  exact LawfulEqCmp.compare_eq_iff_eq

theorem compare_eq_lt_of_isLE {p q : Path} (hle : (p.compare q).isLE)
    (hne : p.components ≠ q.components) : p.compare q = .lt := by
  have hneq : p.compare q ≠ .eq := mt compare_eq_iff.mp hne
  cases h : p.compare q with
  | lt => rfl
  | eq => exact absurd h hneq
  | gt => rw [h] at hle; cases hle

end Path

/-! ## Findings -/

namespace Finding

/-- The order of findings by their files alone. -/
def compareFile (a b : Finding) : Ordering := a.location.file.compare b.location.file

instance : TransCmp compareFile := transCmp_on Path.compare fun f : Finding => f.location.file

theorem compare_eq_lex :
    Finding.compare = compareLex compareFile (compareLex (compareOn fun f => f.location.line)
      (compareLex (compareOn fun f => f.location.column) (compareOn fun f => f.rule.rank))) := rfl

instance : TransCmp Finding.compare := by
  rw [compare_eq_lex]
  infer_instance

end Finding

/-! ## Stable sorts -/

/-- `ys` is the **stable sort** of `xs`: the same elements in order, where those that compare as
equal stand as they did in `xs`. -/
structure IsStableSort {α : Type} (cmp : α → α → Ordering) (xs ys : List α) : Prop where
  perm : ys.Perm xs
  ordered : ys.Pairwise fun a b => (cmp a b).isLE
  stable : ∀ a, (ys.filter fun b => cmp a b == .eq) = xs.filter fun b => cmp a b == .eq

section StableSort

variable {α : Type} {cmp : α → α → Ordering} {xs ys zs : List α}

theorem IsStableSort.filter (h : IsStableSort cmp xs ys) (keep : α → Bool) :
    IsStableSort cmp (xs.filter keep) (ys.filter keep) where
  perm := h.perm.filter keep
  ordered := h.ordered.filter keep
  stable := by
    intro a
    rw [List.filter_comm _ keep, List.filter_comm _ keep, h.stable a]

/-- In a stable sort, of two elements that compare as equal the one that stood first stands
first. -/
theorem IsStableSort.pairwise {R : α → α → Prop} [ReflCmp cmp] (h : IsStableSort cmp xs ys)
    (hxs : xs.Pairwise R) : ys.Pairwise fun a b => cmp a b = .lt ∨ cmp a b = .eq ∧ R a b := by
  refine List.pairwise_iff_forall_sublist.mpr fun {a b} hab => ?_
  have hle := List.pairwise_iff_forall_sublist.mp h.ordered hab
  cases heq : cmp a b with
  | lt => exact .inl rfl
  | gt => rw [heq] at hle; cases hle
  | eq =>
    have hkind := hab.filter fun c => cmp a c == .eq
    have hkept : [a, b].filter (fun c => cmp a c == .eq) = [a, b] := by
      simp [ReflCmp.compare_self, heq]
    rw [hkept, h.stable a] at hkind
    exact .inr ⟨rfl, List.pairwise_iff_forall_sublist.mp hxs (hkind.trans List.filter_sublist)⟩

variable [TransCmp cmp]

/-- Two ordered lists agree if the elements equal to any given one stand in them in the same order:
their heads compare as equal, so each is the first of its kind in both lists. -/
theorem eq_of_ordered_of_classes {ys zs : List α} (hys : ys.Pairwise fun a b => (cmp a b).isLE)
    (hzs : zs.Pairwise fun a b => (cmp a b).isLE) (hperm : ys.Perm zs)
    (hclass : ∀ a, (ys.filter fun b => cmp a b == .eq) = zs.filter fun b => cmp a b == .eq) :
    ys = zs := by
  induction ys generalizing zs with
  | nil => exact hperm.nil_eq
  | cons y ys ih =>
    cases zs with
    | nil => exact absurd hperm.length_eq (by simp)
    | cons z zs =>
      have hyz : (cmp y z).isLE := by
        rcases List.mem_cons.mp (hperm.symm.subset List.mem_cons_self) with rfl | hz
        · simp [ReflCmp.compare_self]
        · exact (List.pairwise_cons.mp hys).1 z hz
      have hzy : (cmp z y).isLE := by
        rcases List.mem_cons.mp (hperm.subset List.mem_cons_self) with rfl | hy
        · simp [ReflCmp.compare_self]
        · exact (List.pairwise_cons.mp hzs).1 y hy
      -- the heads are of one kind, and the first of that kind is the same in both lists
      have heq : cmp y z = .eq := OrientedCmp.isLE_antisymm hyz hzy
      have hhead := hclass y
      simp only [List.filter_cons, ReflCmp.compare_self, heq, beq_self_eq_true, if_true,
        List.cons.injEq] at hhead
      obtain ⟨rfl, -⟩ := hhead
      congr 1
      refine ih (List.pairwise_cons.mp hys).2 (List.pairwise_cons.mp hzs).2
        (List.perm_cons y |>.mp hperm) fun a => ?_
      have ha := hclass a
      simp only [List.filter_cons] at ha
      split at ha
      · exact (List.cons.inj ha).2
      · exact ha

/-- A list has one stable sort. -/
theorem IsStableSort.unique (hy : IsStableSort cmp xs ys) (hz : IsStableSort cmp xs zs) : ys = zs :=
  eq_of_ordered_of_classes hy.ordered hz.ordered (hy.perm.trans hz.perm.symm)
    fun a => (hy.stable a).trans (hz.stable a).symm

theorem isLE_total (a b : α) : ((cmp a b).isLE || (cmp b a).isLE) = true := by
  have hswap : cmp b a = (cmp a b).swap := OrientedCmp.eq_swap
  rw [hswap]
  cases cmp a b <;> rfl

/-- The elements equal to a given one are ordered as they stand, so merge sort keeps them. -/
theorem filter_eq_mergeSort (a : α) (xs : List α) :
    ((xs.mergeSort fun a b => (cmp a b).isLE).filter fun b => cmp a b == .eq) =
      xs.filter fun b => cmp a b == .eq := by
  have hclass : (xs.filter fun b => cmp a b == .eq).Pairwise fun b c => (cmp b c).isLE := by
    refine List.pairwise_of_forall_mem_list fun b hb c hc => ?_
    have hb := (List.mem_filter.mp hb).2
    have hc := (List.mem_filter.mp hc).2
    rw [beq_iff_eq] at hb hc
    rw [← TransCmp.congr_left hb, hc]
    rfl
  -- an ordered sublist survives sorting, and there are as many elements of this kind after it
  have hsub := List.sublist_mergeSort (fun _ _ _ => TransCmp.isLE_trans) isLE_total hclass
    List.filter_sublist
  refine (List.Sublist.eq_of_length ?_ ?_).symm
  · simpa using hsub.filter fun b => cmp a b == .eq
  · exact ((List.mergeSort_perm xs _).filter _).length_eq.symm

theorem IsStableSort.mergeSort (xs : List α) :
    IsStableSort cmp xs (xs.mergeSort fun a b => (cmp a b).isLE) where
  perm := List.mergeSort_perm xs _
  ordered := List.pairwise_mergeSort (fun _ _ _ => TransCmp.isLE_trans) isLE_total xs
  stable := fun a => filter_eq_mergeSort a xs

/-- Sorting commutes with a filter. -/
theorem filter_mergeSort (keep : α → Bool) (xs : List α) :
    ((xs.mergeSort fun a b => (cmp a b).isLE).filter keep) =
      (xs.filter keep).mergeSort fun a b => (cmp a b).isLE :=
  ((IsStableSort.mergeSort xs).filter keep).unique (IsStableSort.mergeSort _)

end StableSort

end AdLint
