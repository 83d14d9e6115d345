import AdLint.Proofs.DeclarationIndex
import AdLint.Proofs.NameGraph

/-!
# Types above a type

The types that were added to a project relate names: a name is directly below each name that a type
of the first name extends or implements. Types of one name share their place, a name above need not
be declared, and the names may lie in a cycle. A declaration lies below a base type if one of its
own supertypes is that type or leads up to it.

An index keeps this relation as a graph that it extends with each declaration. Which nodes and edges
the graph has is known after every sequence of declarations, so that the answers of an index follow:
they do not depend on the order of the sequence, and a positive one stays so.

## Main results

* `isSubtypeOf_iff_reflTransGen`: which base types a declaration lies below, for every sequence of
  added declarations
-/

namespace AdLint.Project

open Relation (ReflTransGen)
open NameGraph (Draws Edge Search)

theorem reflects_foldl (calls : List Declaration) :
    (calls.foldl Index.add {}).Reflects (calls.foldl addDeclaration {}) :=
  Index.reflects_empty.foldl calls

theorem hierarchy_foldl (calls : List Declaration) :
    (calls.foldl Index.add {}).hierarchy = calls.foldl NameGraph.add {} := by
  rw [(reflects_foldl calls).hierarchy, hierarchy, added_foldl, List.nil_append]

/-- **After any sequence of added declarations, a declaration lies below a base type if and only if
one of its supertypes leads up to it by name.** The graph that is built on the way has one node for
each name that was met and one edge for each pair of a type and a supertype. A path in it is found
exactly where edges lead, and the search for it comes to its end, cycle or not. The answer does not
depend on the order of the sequence, and one that is positive stays so whatever is added later. -/
theorem isSubtypeOf_iff_reflTransGen :
    (∀ (calls : List Declaration) (d : Declaration) (base : String),
        ((calls.foldl Index.add {}).isSubtypeOf d base = true ↔
          ∃ s ∈ d.superTypes,
            ReflTransGen (DirectlyBelow calls) (TypeName.simple s) (TypeName.simple base)) ∧
        (calls.foldl addDeclaration {}).isSubtypeOf d base =
          (calls.foldl Index.add {}).isSubtypeOf d base) ∧
      (∀ calls : List Declaration,
        Draws (calls.foldl Index.add {}).hierarchy (Mentions calls) (DirectlyBelow calls)) ∧
      (∀ (g : NameGraph) (lower upper : Nat),
        g.hasPath lower upper = true ↔ ReflTransGen (Edge g.edges) lower upper) ∧
      (∀ (g : NameGraph) (lower n : Nat), g.edges.length + 1 ≤ n →
        (Search.run g.edges n ⟨[], [lower]⟩).pending = []) ∧
      (∀ calls reordered : List Declaration, calls.Perm reordered →
        (calls.foldl Index.add {}).isSubtypeOf = (reordered.foldl Index.add {}).isSubtypeOf) ∧
      ∀ (calls more : List Declaration) (d : Declaration) (base : String),
        (calls.foldl Index.add {}).isSubtypeOf d base = true →
          ((calls ++ more).foldl Index.add {}).isSubtypeOf d base = true := by
  have hproject (calls : List Declaration) :
      (calls.foldl Index.add {}).isSubtypeOf = (calls.foldl addDeclaration {}).isSubtypeOf :=
    (reflects_foldl calls).isSubtypeOf_eq
  have hadded (calls : List Declaration) : (calls.foldl addDeclaration {}).added = calls :=
    added_foldl {} calls
  refine ⟨?_, ?_, ?_, ?_, ?_, ?_⟩
  · intro calls d base
    rw [hproject, isSubtypeOf_iff, hadded]
    exact ⟨Iff.rfl, rfl⟩
  · intro calls
    rw [hierarchy_foldl]
    exact NameGraph.draws_foldl calls
  · intro g lower upper
    exact NameGraph.hasPath_iff
  · intro g lower n hn
    exact Search.pending_run_eq_nil ((Search.left_start_le g.edges lower).trans hn)
  · intro calls reordered hperm
    rw [hproject, hproject]
    refine isSubtypeOf_congr fun t => ?_
    rw [hadded, hadded]
    exact hperm.mem_iff
  · intro calls more d base h
    rw [hproject] at h ⊢
    refine isSubtypeOf_mono ?_ h
    rw [hadded, hadded]
    exact List.subset_append_left calls more

/-- A class with its supertypes, in a place of a file. -/
def classAt (start : Nat) (name : String) (superTypes : List String) : Declaration where
  id := ⟨⟨"A.kt"⟩, start, start + 1⟩
  name := name
  kind := .classType
  location := ⟨⟨"A.kt"⟩, 1, start + 1, start, start + 1⟩
  language := .kotlin
  superTypes := superTypes

/-- Two classes above one another, one of which is also below a class that is declared nowhere. -/
def cyclicClasses : List Declaration := [classAt 0 "A" ["B"], classAt 2 "B" ["x.A<T>", "y.Base"]]

/-- The cycle is left for the class that is declared nowhere, in any order and after another class
is added, though the search comes back to where it was. -/
theorem isSubtypeOf_iff_reflTransGen_cycle :
    (cyclicClasses.foldl Index.add {}).hierarchy =
        ⟨[("A", 0), ("B", 1), ("Base", 2)], [(0, 1), (1, 0), (1, 2)]⟩ ∧
      (cyclicClasses.foldl Index.add {}).isSubtypeOf (classAt 4 "C" ["A?"]) "Base" = true ∧
      (cyclicClasses.reverse.foldl Index.add {}).isSubtypeOf (classAt 4 "C" ["A?"]) "Base" = true ∧
      ((cyclicClasses ++ [classAt 4 "C" ["A?"]]).foldl Index.add {}).isSubtypeOf
        (classAt 4 "C" ["A?"]) "Base" = true ∧
      (Search.run [(0, 1), (1, 0), (1, 2)] 4 ⟨[], [0]⟩).pending = [] := by
  obtain ⟨hclosure, -, -, hend, horder, hmore⟩ := isSubtypeOf_iff_reflTransGen
  have hbelow :
      (cyclicClasses.foldl Index.add {}).isSubtypeOf (classAt 4 "C" ["A?"]) "Base" = true := by
    have hA : DirectlyBelow cyclicClasses (TypeName.simple "A?") "B" :=
      ⟨classAt 0 "A" ["B"], List.mem_cons_self, rfl, by decide +kernel, "B", List.mem_cons_self,
        by decide +kernel⟩
    have hB : DirectlyBelow cyclicClasses "B" (TypeName.simple "Base") :=
      ⟨classAt 2 "B" ["x.A<T>", "y.Base"], by simp [cyclicClasses], rfl, rfl,
        "y.Base", by simp [classAt], by decide +kernel⟩
    exact (hclosure _ _ _).1.mpr ⟨"A?", List.mem_cons_self, .tail (.single hA) hB⟩
  refine ⟨by decide +kernel, hbelow, ?_, hmore _ _ _ _ hbelow, ?_⟩
  · rw [horder _ _ (List.reverse_perm cyclicClasses)]
    exact hbelow
  · exact hend ⟨[], [(0, 1), (1, 0), (1, 2)]⟩ 0 4 (by decide)

end AdLint.Project
