import Mathlib.Data.List.Chain
import Mathlib.Data.List.Perm.Subperm
import Mathlib.Logic.Relation

/-!
# Reaching within a bound

A search that follows a relation for a bounded number of steps finds everything the relation leads
to, if the bound is the number of places it can lead to: a path that comes back to a place can leave
out the detour, and a path without detours visits each place once.

## Main definitions

* `ReachWithin r n a b`: `r` leads from `a` to `b` in at most `n` steps

## Main results

* `exists_nodup_chain`: a path without detours
* `reachWithin_length_iff`: as many steps as there are places reach all that can be reached
-/

namespace AdLint

open Relation (ReflTransGen)

variable {α : Type} {r : α → α → Prop} {a b : α}

/-- The relation leads from one place to another in at most `n` steps. -/
inductive ReachWithin (r : α → α → Prop) : Nat → α → α → Prop
  | here (n : Nat) (a : α) : ReachWithin r n a a
  | step {n : Nat} {a b c : α} : r a b → ReachWithin r n b c → ReachWithin r (n + 1) a c

theorem ReachWithin.reflTransGen {n : Nat} (h : ReachWithin r n a b) : ReflTransGen r a b := by
  induction h with
  | here n a => exact .refl
  | step hab _ ih => exact .head hab ih

theorem ReachWithin.mono {m n : Nat} (h : ReachWithin r m a b) (hmn : m ≤ n) :
    ReachWithin r n a b := by
  induction h generalizing n with
  | here m a => exact .here n a
  | step hab _ ih =>
    obtain ⟨k, rfl⟩ : ∃ k, n = k + 1 := ⟨n - 1, by omega⟩
    exact .step hab (ih (by omega))

/-- What is reached, is reached along a path that visits no place twice. -/
theorem exists_nodup_chain (h : ReflTransGen r a b) :
    ∃ l, List.IsChain r (a :: l) ∧ (a :: l).Nodup ∧
      (a :: l).getLast (List.cons_ne_nil a l) = b := by
  induction h using ReflTransGen.head_induction_on with
  | refl => exact ⟨[], by simp⟩
  | @head a c hac _ ih =>
    obtain ⟨l, hchain, hnodup, hlast⟩ := ih
    by_cases ha : a ∈ c :: l
    · -- the path comes back to `a`: go on from there
      obtain ⟨s, t, hst⟩ := List.append_of_mem ha
      have hsuffix : a :: t <:+ c :: l := ⟨s, hst.symm⟩
      refine ⟨t, hchain.suffix hsuffix, hnodup.sublist hsuffix.sublist, ?_⟩
      rw [← hlast]
      simp only [hst, List.getLast_append_of_ne_nil _ (List.cons_ne_nil a t)]
    · exact ⟨c :: l, .cons_cons hac hchain, List.nodup_cons.mpr ⟨ha, hnodup⟩, by simpa using hlast⟩

theorem reachWithin_of_isChain {l : List α} (h : List.IsChain r (a :: l)) :
    ReachWithin r l.length a ((a :: l).getLast (List.cons_ne_nil a l)) := by
  induction l generalizing a with
  | nil => exact .here 0 a
  | cons c l ih =>
    rw [List.isChain_cons_cons] at h
    exact .step h.1 (by simpa using ih h.2)

/-- All places of a path after the first one are led to. -/
theorem subset_of_isChain {places l : List α} (hplaces : ∀ x y, r x y → y ∈ places)
    (h : List.IsChain r (a :: l)) : l ⊆ places := by
  induction l generalizing a with
  | nil => exact List.nil_subset places
  | cons c l ih =>
    rw [List.isChain_cons_cons] at h
    exact List.cons_subset.mpr ⟨hplaces a c h.1, ih h.2⟩

/-- As many steps as there are places that are led to reach all that can be reached. -/
theorem reachWithin_length_iff {places : List α} (hplaces : ∀ x y, r x y → y ∈ places) :
    ReachWithin r places.length a b ↔ ReflTransGen r a b := by
  refine ⟨ReachWithin.reflTransGen, fun h => ?_⟩
  obtain ⟨l, hchain, hnodup, rfl⟩ := exists_nodup_chain h
  -- a path that visits no place twice is no longer than the list of places
  have hlength :=
    (List.subperm_of_subset hnodup.of_cons (subset_of_isChain hplaces hchain)).length_le
  exact (reachWithin_of_isChain hchain).mono hlength

end AdLint
