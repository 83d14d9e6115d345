import Mathlib.Data.List.Basic
import Mathlib.Data.List.Forall2
import Mathlib.Data.List.Pairwise

/-!
# Lists and failures

Facts on lists and on computations that may fail which several parts of the theory use: what the
items of a list yield one after the other, and what a computation yields behind another one.

## Main results

* `flatMap_filter_of_eq_nil`: items that yield nothing can be left out
* `forall₂_flatMap`, `forall₂_filterMap_filter`: lists whose items correspond
* `exists_of_bind_eq_ok`, `map_eq_ok_iff`: a computation succeeds if its parts do
-/

namespace AdLint

section Lists

variable {α β γ : Type}

theorem flatMap_filter_of_eq_nil {p : α → Bool} {f : α → List β} {as : List α}
    (h : ∀ a ∈ as, p a = false → f a = []) : (as.filter p).flatMap f = as.flatMap f := by
  induction as with
  | nil => rfl
  | cons a as ih =>
    obtain ⟨ha, has⟩ := List.forall_mem_cons.mp h
    rw [List.filter_cons, List.flatMap_cons, ← ih has]
    split
    · rw [List.flatMap_cons]
    · next hp => rw [ha (Bool.eq_false_iff.mpr hp), List.nil_append]

theorem forall₂_flatMap {R : β → α → Prop} {f : α → List β} {as : List α}
    (h : ∀ a ∈ as, ∃ b, f a = [b] ∧ R b a) : List.Forall₂ R (as.flatMap f) as := by
  induction as with
  | nil => exact .nil
  | cons a as ih =>
    obtain ⟨⟨b, hb, hab⟩, has⟩ := List.forall_mem_cons.mp h
    rw [List.flatMap_cons, hb]
    exact .cons hab (ih has)

theorem forall₂_flatMap_flatMap {R : α → β → Prop} {f : γ → List α} {g : γ → List β} {l : List γ}
    (h : ∀ c ∈ l, List.Forall₂ R (f c) (g c)) : List.Forall₂ R (l.flatMap f) (l.flatMap g) := by
  have hsame : List.Forall₂ (fun c c' => c = c' ∧ c ∈ l) l l :=
    List.forall₂_same.mpr fun c hc => ⟨rfl, hc⟩
  refine List.rel_flatMap hsame ?_
  rintro c _ ⟨rfl, hc⟩
  exact h c hc

theorem forall₂_filterMap_filter {R : α → β → Prop} {f : β → Option α} {p : β → Bool} {l : List β}
    (hp : ∀ b ∈ l, p b = (f b).isSome) (hf : ∀ b ∈ l, ∀ a, f b = some a → R a b) :
    List.Forall₂ R (l.filterMap f) (l.filter p) := by
  induction l with
  | nil => exact .nil
  | cons b l ih =>
    obtain ⟨hpb, hpl⟩ := List.forall_mem_cons.mp hp
    obtain ⟨hfb, hfl⟩ := List.forall_mem_cons.mp hf
    cases hb : f b with
    | none =>
      rw [List.filterMap_cons_none hb, List.filter_cons_of_neg (by simp [hpb, hb])]
      exact ih hpl hfl
    | some a =>
      rw [List.filterMap_cons_some hb, List.filter_cons_of_pos (by simp [hpb, hb])]
      exact .cons (hfb a hb) (ih hpl hfl)

theorem map_eq_of_forall₂ {R : β → α → Prop} {f : β → γ} {g : α → γ} {as : List α} {bs : List β}
    (h : List.Forall₂ R bs as) (hfg : ∀ b a, R b a → f b = g a) : bs.map f = as.map g := by
  induction h with
  | nil => rfl
  | cons hab _ ih => rw [List.map_cons, List.map_cons, hfg _ _ hab, ih]

end Lists

section Failures

variable {α β ε : Type} {x : Except ε α}

theorem exists_of_bind_eq_ok {f : α → Except ε β} {b : β} (h : x >>= f = .ok b) :
    ∃ a, x = .ok a ∧ f a = .ok b := by
  cases x with
  | error e => cases h
  | ok a => exact ⟨a, rfl, h⟩

theorem map_eq_ok_iff {f : α → β} {b : β} : x.map f = .ok b ↔ ∃ a, x = .ok a ∧ f a = b := by
  cases x with
  | error e => simp [Except.map]
  | ok a => simp [Except.map]

theorem map_eq_error_iff {f : α → β} {e : ε} : x.map f = .error e ↔ x = .error e := by
  cases x with
  | error e' => simp [Except.map]
  | ok a => simp [Except.map]

end Failures

end AdLint
