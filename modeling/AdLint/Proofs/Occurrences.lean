import AdLint.Proofs.FormedReaders
import AdLint.Proofs.Placement
import AdLint.Proofs.Prelude

/-!
# Nodes in the order of the text

The nodes of a tree, each before its parts, together with the nodes around them. A visit that passes
over parts of nodes reaches the nodes that are not hidden: neither they nor any node around them is
passed over. In a placed forest a node with more than one part has a range of its own, so nodes that
branch are told apart by their ranges.

## Main definitions

* `Tree.occurrences`: the nodes of a tree in order, with the nodes around them
* `Tree.hidden`: whether a node or a node around it is passed over
* `Tree.visible`: the nodes of a tree that are not hidden
* `Tree.gather`: what the visible nodes yield

## Main results

* `Tree.gather_eq`: a visit that passes over some parts yields what the visible nodes do
* `Tree.pairwise_occurrencesIn`: nodes that branch are told apart by their ranges
-/

namespace AdLint

variable {κ : Type}

/-! ## Nodes and the nodes around them -/

/-- A node with the nodes around it, the nearest first. -/
structure Occurrence (κ : Type) where
  node : Tree κ
  around : List (Tree κ)

namespace Tree

mutual

/-- The nodes of a tree that stands in the nodes `around`, each one before its parts. -/
def occurrences (around : List (Tree κ)) : Tree κ → List (Occurrence κ)
  | .node kind role span parts =>
    ⟨.node kind role span parts, around⟩ ::
      occurrencesIn (.node kind role span parts :: around) parts

/-- The nodes of a forest that stands in the nodes `around`. -/
def occurrencesIn (around : List (Tree κ)) : List (Tree κ) → List (Occurrence κ)
  | [] => []
  | t :: ts => occurrences around t ++ occurrencesIn around ts

end

mutual

/-- What holds of a node whenever it holds of its parts holds of every node. -/
theorem induct {motive : Tree κ → Prop}
    (node : ∀ t : Tree κ, (∀ u ∈ t.parts, motive u) → motive t) : ∀ t : Tree κ, motive t
  | .node _ _ _ parts => node _ (inductIn node parts)

theorem inductIn {motive : Tree κ → Prop}
    (node : ∀ t : Tree κ, (∀ u ∈ t.parts, motive u) → motive t) :
    ∀ forest : List (Tree κ), ∀ u ∈ forest, motive u
  | [] => by simp
  | t :: forest => List.forall_mem_cons.mpr ⟨induct node t, inductIn node forest⟩

end

section Occurrences

variable {around : List (Tree κ)} {t : Tree κ} {forest : List (Tree κ)} {o : Occurrence κ}

theorem occurrences_eq (around : List (Tree κ)) (t : Tree κ) :
    t.occurrences around = ⟨t, around⟩ :: occurrencesIn (t :: around) t.parts := by
  cases t
  rfl

theorem occurrencesIn_eq_flatMap (around : List (Tree κ)) (forest : List (Tree κ)) :
    occurrencesIn around forest = forest.flatMap (occurrences around) := by
  induction forest with
  | nil => rfl
  | cons t forest ih => rw [occurrencesIn, ih, List.flatMap_cons]

theorem mem_occurrences : o ∈ t.occurrences around ↔
    o = ⟨t, around⟩ ∨ ∃ u ∈ t.parts, o ∈ u.occurrences (t :: around) := by
  rw [occurrences_eq, occurrencesIn_eq_flatMap, List.mem_cons, List.mem_flatMap]

theorem mem_occurrencesIn :
    o ∈ occurrencesIn around forest ↔ ∃ t ∈ forest, o ∈ t.occurrences around := by
  rw [occurrencesIn_eq_flatMap, List.mem_flatMap]

theorem Every.of_mem_occurrences {P : NodeProperty κ} (h : t.Every P)
    (ho : o ∈ t.occurrences around) : o.node.Every P := by
  induction t using induct generalizing around with
  | node t ih =>
    rcases mem_occurrences.mp ho with rfl | ⟨u, hu, ho⟩
    · exact h
    · exact ih u hu (h.inside u hu) ho

theorem EveryIn.of_mem_occurrencesIn {P : NodeProperty κ} (h : EveryIn P forest)
    (ho : o ∈ occurrencesIn around forest) : o.node.Every P := by
  obtain ⟨t, ht, ho⟩ := mem_occurrencesIn.mp ho
  exact (h t ht).of_mem_occurrences ho

end Occurrences

/-! ## Hidden and visible nodes -/

/-- Whether a node or one of the nodes around it is passed over. What is passed over is told by
`skips`, of a node and the nodes around it. -/
def hidden (skips : Tree κ → List (Tree κ) → Bool) : Tree κ → List (Tree κ) → Bool
  | t, [] => skips t []
  | t, outer :: beyond => skips t (outer :: beyond) || hidden skips outer beyond

/-- The nodes of a tree that are not hidden. -/
def visible (skips : Tree κ → List (Tree κ) → Bool) (around : List (Tree κ)) (t : Tree κ) :
    List (Occurrence κ) :=
  (t.occurrences around).filter fun o => !hidden skips o.node o.around

/-- The nodes of a forest that are not hidden. -/
def visibleIn (skips : Tree κ → List (Tree κ) → Bool) (forest : List (Tree κ)) :
    List (Occurrence κ) :=
  (occurrencesIn [] forest).filter fun o => !hidden skips o.node o.around

section Visible

variable {skips : Tree κ → List (Tree κ) → Bool} {around : List (Tree κ)} {t : Tree κ}

/-- What stands in a hidden node is hidden. -/
theorem hidden_of_mem_occurrences {o : Occurrence κ} (h : hidden skips t around = true)
    (ho : o ∈ t.occurrences around) : hidden skips o.node o.around = true := by
  induction t using induct generalizing around with
  | node t ih =>
    rcases mem_occurrences.mp ho with rfl | ⟨u, hu, ho⟩
    · exact h
    · exact ih u hu (by rw [hidden, h, Bool.or_true]) ho

theorem visible_of_hidden (h : hidden skips t around = true) : visible skips around t = [] := by
  refine List.filter_eq_nil_iff.mpr fun o ho => ?_
  rw [hidden_of_mem_occurrences h ho]
  simp

/-- **The visible nodes of a tree** are the node itself and those of the parts not passed over. -/
theorem visible_eq (h : hidden skips t around = false) :
    visible skips around t = ⟨t, around⟩ :: t.parts.flatMap fun u =>
      if skips u (t :: around) then [] else visible skips (t :: around) u := by
  rw [visible, occurrences_eq, occurrencesIn_eq_flatMap, List.filter_cons_of_pos (by rw [h]; rfl),
    List.filter_flatMap]
  refine congrArg _ (List.flatMap_congr fun u hu => ?_)
  split
  · next hskips => exact visible_of_hidden (by rw [hidden, hskips, Bool.true_or])
  · rfl

theorem visibleIn_eq (forest : List (Tree κ)) :
    visibleIn skips forest = forest.flatMap (visible skips []) := by
  rw [visibleIn, occurrencesIn_eq_flatMap, List.filter_flatMap]
  rfl

end Visible

/-! ## What visible nodes yield -/

/-- What the visible nodes of a tree yield, each one by itself and by where it stands. -/
def gather {α : Type} (skips : Tree κ → List (Tree κ) → Bool) (f : Occurrence κ → List α)
    (around : List (Tree κ)) (t : Tree κ) : List α :=
  (visible skips around t).flatMap f

section Gather

variable {α : Type} {skips : Tree κ → List (Tree κ) → Bool} {f : Occurrence κ → List α}
  {g : Tree κ → List α} {around : List (Tree κ)} {t : Tree κ}

/-- A visit that goes on with the parts that satisfy `p` yields what the visible nodes do, if these
are the parts that are not passed over. -/
theorem gather_eq {p : Tree κ → Bool} (hseen : hidden skips t around = false)
    (hskips : ∀ u, skips u (t :: around) = !p u)
    (hg : ∀ u ∈ t.parts, p u = true → hidden skips u (t :: around) = false →
      g u = gather skips f (t :: around) u) :
    gather skips f around t =
      f ⟨t, around⟩ ++ t.parts.flatMap fun u => if p u then g u else [] := by
  rw [gather, visible_eq hseen, List.flatMap_cons, List.flatMap_assoc]
  congr 1
  refine List.flatMap_congr fun u hu => ?_
  cases hp : p u with
  | false =>
    rw [hskips u, hp]
    rfl
  | true =>
    have hvisible : skips u (t :: around) = false := by rw [hskips u, hp, Bool.not_true]
    have hpart : hidden skips u (t :: around) = false := by
      rw [hidden, hvisible, hseen, Bool.or_false]
    rw [hvisible, if_neg Bool.false_ne_true, if_pos rfl, hg u hu hp hpart, gather]

/-- A visit that goes on with no part. -/
theorem gather_eq_none (hseen : hidden skips t around = false)
    (hskips : ∀ u, skips u (t :: around) = true) : gather skips f around t = f ⟨t, around⟩ := by
  rw [gather_eq (p := fun _ => false) (g := fun _ => []) hseen hskips (by simp)]
  simp

/-- A visit that goes on with all the parts. -/
theorem gather_eq_all (hseen : hidden skips t around = false)
    (hskips : ∀ u, skips u (t :: around) = false)
    (hg : ∀ u ∈ t.parts, hidden skips u (t :: around) = false →
      g u = gather skips f (t :: around) u) :
    gather skips f around t = f ⟨t, around⟩ ++ t.parts.flatMap g :=
  gather_eq (p := fun _ => true) hseen hskips fun u hu _ => hg u hu

theorem flatMap_gather (forest : List (Tree κ)) :
    forest.flatMap (gather skips f []) = (visibleIn skips forest).flatMap f := by
  rw [visibleIn_eq, List.flatMap_assoc]
  rfl

end Gather

/-! ## Ranges -/

/-- A node has more than one part. -/
def Branches (t : Tree κ) : Prop := ∃ u ∈ t.parts, ∃ v ∈ t.parts, u ≠ v

/-- Two nodes that branch do not have the same range. -/
def RangesDiffer (t u : Tree κ) : Prop :=
  t.Branches → u.Branches → (t.span.start.byte, t.span.stop) ≠ (u.span.start.byte, u.span.stop)

section Ranges

variable {lo hi : Nat} {around : List (Tree κ)} {t : Tree κ} {forest : List (Tree κ)}
  {o : Occurrence κ}

theorem range_of_mem_occurrences (ht : t.Placed) (hspan : t.span.start.byte < t.span.stop)
    (ho : o ∈ t.occurrences around) :
    t.span.start.byte ≤ o.node.span.start.byte ∧ o.node.span.start.byte < o.node.span.stop ∧
      o.node.span.stop ≤ t.span.stop := by
  induction t using induct generalizing around with
  | node t ih =>
    rcases mem_occurrences.mp ho with rfl | ⟨u, hu, ho⟩
    · exact ⟨le_rfl, hspan, le_rfl⟩
    · obtain ⟨hlo, hne, hhi⟩ := ht.placedIn_parts.mem hu
      obtain ⟨hstart, hmid, hstop⟩ := ih u hu (ht.placedIn_parts.placed u hu) hne ho
      exact ⟨hlo.trans hstart, hmid, hstop.trans hhi⟩

/-- A node that branches has another range than what stands in its parts. -/
theorem rangesDiffer_of_mem_parts {u : Tree κ} (ht : t.Placed) (hu : u ∈ t.parts)
    (ho : o ∈ u.occurrences around) : t.RangesDiffer o.node := by
  rintro ⟨v, hv, w, hw, hvw⟩ - heq
  have hinside : u.span.Inside t.span := by
    by_cases huv : u = v
    · exact ht.inside hu hw (huv ▸ hvw)
    · exact ht.inside hu hv huv
  obtain ⟨hstart, hstop, hproper⟩ := hinside
  obtain ⟨hlo, -, hhi⟩ := range_of_mem_occurrences (ht.placedIn_parts.placed u hu)
    (ht.placedIn_parts.mem hu).2.1 ho
  obtain ⟨hs, he⟩ := Prod.mk.inj heq
  omega

/-- Nodes of different trees of a forest have different ranges. -/
theorem pairwise_flatMap_occurrences (h : PlacedIn lo hi forest)
    (hforest : ∀ t ∈ forest,
      (t.occurrences around).Pairwise fun a b => a.node.RangesDiffer b.node) :
    (occurrencesIn around forest).Pairwise fun a b => a.node.RangesDiffer b.node := by
  rw [occurrencesIn_eq_flatMap, List.pairwise_flatMap]
  refine ⟨hforest, ?_⟩
  have hspans : forest.Pairwise fun t u => t.span.stop ≤ u.span.start.byte :=
    List.pairwise_map.mp h.inOrder.pairwise
  refine hspans.imp_of_mem fun {t u} ht hu htu a ha b hb _ _ heq => ?_
  obtain ⟨-, hane, hastop⟩ := range_of_mem_occurrences (h.placed t ht) (h.mem ht).2.1 ha
  obtain ⟨hbstart, -, -⟩ := range_of_mem_occurrences (h.placed u hu) (h.mem hu).2.1 hb
  obtain ⟨hs, -⟩ := Prod.mk.inj heq
  omega

theorem pairwise_occurrences (ht : t.Placed) :
    (t.occurrences around).Pairwise fun a b => a.node.RangesDiffer b.node := by
  induction t using induct generalizing around with
  | node t ih =>
    have hparts : (occurrencesIn (t :: around) t.parts).Pairwise
        fun a b => a.node.RangesDiffer b.node :=
      pairwise_flatMap_occurrences ht.placedIn_parts fun u hu =>
        ih u hu (ht.placedIn_parts.placed u hu)
    rw [occurrences_eq]
    refine .cons (fun o ho => ?_) hparts
    obtain ⟨u, hu, ho⟩ := mem_occurrencesIn.mp ho
    exact rangesDiffer_of_mem_parts ht hu ho

/-- **Nodes that branch have different ranges.** -/
theorem pairwise_occurrencesIn (h : PlacedIn lo hi forest) :
    (occurrencesIn around forest).Pairwise fun a b => a.node.RangesDiffer b.node :=
  pairwise_flatMap_occurrences h fun t ht => pairwise_occurrences (h.placed t ht)

/-- No two visible nodes have the same range, if all of them branch. -/
theorem nodup_ranges {skips : Tree κ → List (Tree κ) → Bool} {p : Tree κ → Bool}
    (h : PlacedIn lo hi forest)
    (hbranches : ∀ t ∈ ((visibleIn skips forest).map Occurrence.node).filter p, t.Branches) :
    ((((visibleIn skips forest).map Occurrence.node).filter p).map fun t =>
      (t.span.start.byte, t.span.stop)).Nodup := by
  have hdiffer : (((visibleIn skips forest).map Occurrence.node).filter p).Pairwise RangesDiffer :=
    (List.pairwise_map.mpr ((pairwise_occurrencesIn h).filter _)).filter _
  exact List.pairwise_map.mpr (hdiffer.imp_of_mem fun {t u} ht hu htu =>
    htu (hbranches t ht) (hbranches u hu))

end Ranges

end Tree

end AdLint
