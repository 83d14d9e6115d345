import AdLint.Project.Hierarchy
import Mathlib.Data.List.Induction
import Mathlib.Data.List.Nodup
import Mathlib.Logic.Relation

/-!
# The graph of type names

The graph of type names grows declaration by declaration. Here is what it has become after any
number of declarations: a node for each name that was met, another one for each, and an edge between
two nodes exactly if a type of the one name was added that has a supertype of the other, drawn once.

A search along the edges goes to every node at most once, and an edge is followed only from the node
that it starts at. So the nodes that are left to go to and the edges that are left to follow get
fewer with every step, cycle or not, and when no node is left, the search has been everywhere that a
path leads.

## Main definitions

* `NameGraph.Search.Explores`: what a search knows on its way from a node
* `NameGraph.Draws`: a graph whose nodes are some names and whose edges are a relation between them
* `Project.DirectlyBelow`: a type of the first name has a supertype of the second

## Main results

* `NameGraph.Search.pending_run_eq_nil`: the search comes to its end
* `NameGraph.hasPath_iff`: it finds what the edges lead to
* `NameGraph.Draws.add`, `NameGraph.draws_foldl`: one more declaration, and all of them
* `Project.isSubtypeOf_iff`: which base types a declaration lies below
-/

namespace AdLint

open Relation (ReflTransGen)

namespace NameGraph

/-! ## The search -/

/-- An edge leads from one node to another. -/
def Edge (edges : List (Nat × Nat)) (lower upper : Nat) : Prop := (lower, upper) ∈ edges

namespace Search

variable {edges : List (Nat × Nat)} {start : Nat} {s : Search}

/-- What a search knows **on its way** from a node: it goes only where edges lead, and of each node
that it has been at, it has been or will go wherever an edge leads. -/
structure Explores (edges : List (Nat × Nat)) (start : Nat) (s : Search) : Prop where
  covers : start ∈ s.seen ∨ start ∈ s.pending
  sound : ∀ a, a ∈ s.seen ∨ a ∈ s.pending → ReflTransGen (Edge edges) start a
  closed : ∀ a ∈ s.seen, ∀ b, Edge edges a b → b ∈ s.seen ∨ b ∈ s.pending

/-- The nodes that are left to go to and the edges that are left to follow. -/
def left (edges : List (Nat × Nat)) (s : Search) : Nat :=
  s.pending.length + edges.countP fun e => !s.seen.contains e.1

theorem explores_start (edges : List (Nat × Nat)) (start : Nat) :
    Explores edges start ⟨[], [start]⟩ where
  covers := .inr List.mem_cons_self
  sound a ha := by
    rcases ha with ha | ha
    · cases ha
    · rw [List.mem_singleton.mp ha]
  closed a ha := by cases ha

theorem mem_above_iff {a b : Nat} {seen : List Nat} :
    b ∈ above edges seen a ↔ Edge edges a b ∧ b ∉ a :: seen := by
  rw [above, List.mem_map]
  constructor
  · rintro ⟨⟨lower, upper⟩, he, rfl⟩
    obtain ⟨hedge, hnew⟩ := List.mem_filter.mp he
    obtain ⟨hlower, hunseen⟩ := Bool.and_eq_true_iff.mp hnew
    obtain rfl := beq_iff_eq.mp hlower
    exact ⟨hedge, by simpa using hunseen⟩
  · rintro ⟨hedge, hunseen⟩
    exact ⟨(a, b), List.mem_filter.mpr ⟨hedge, by simpa using hunseen⟩, rfl⟩

section Step

variable {a : Nat} {seen rest : List Nat}

theorem step_of_mem (ha : a ∈ seen) : step edges ⟨seen, a :: rest⟩ = ⟨seen, rest⟩ :=
  if_pos (List.contains_iff_mem.mpr ha)

theorem step_of_not_mem (ha : a ∉ seen) :
    step edges ⟨seen, a :: rest⟩ = ⟨a :: seen, above edges seen a ++ rest⟩ :=
  if_neg (mt List.contains_iff_mem.mp ha)

end Step

/-- A step forgets no node. -/
theorem mem_step {b : Nat} (hb : b ∈ s.seen ∨ b ∈ s.pending) :
    b ∈ (s.step edges).seen ∨ b ∈ (s.step edges).pending := by
  obtain ⟨seen, pending⟩ := s
  cases pending with
  | nil => exact hb
  | cons a rest =>
    by_cases ha : a ∈ seen
    · rw [step_of_mem ha]
      rcases hb with hb | hb
      · exact .inl hb
      · rcases List.mem_cons.mp hb with rfl | hb
        · exact .inl ha
        · exact .inr hb
    · rw [step_of_not_mem ha]
      rcases hb with hb | hb
      · exact .inl (List.mem_cons_of_mem a hb)
      · rcases List.mem_cons.mp hb with rfl | hb
        · exact .inl List.mem_cons_self
        · exact .inr (List.mem_append_right _ hb)

/-- **A step keeps what the search knows.** -/
theorem Explores.step (h : Explores edges start s) : Explores edges start (s.step edges) := by
  have hcovers : start ∈ (s.step edges).seen ∨ start ∈ (s.step edges).pending := mem_step h.covers
  have hclosed : ∀ a ∈ s.seen, ∀ b, Edge edges a b →
      b ∈ (s.step edges).seen ∨ b ∈ (s.step edges).pending :=
    fun a ha b hb => mem_step (h.closed a ha b hb)
  obtain ⟨seen, pending⟩ := s
  cases pending with
  | nil => exact h
  | cons a rest =>
    by_cases ha : a ∈ seen
    · -- the node was put down twice, and nothing follows from it a second time
      rw [step_of_mem ha] at hcovers hclosed ⊢
      exact ⟨hcovers, fun b hb => h.sound b (hb.imp_right (List.mem_cons_of_mem a)), hclosed⟩
    · -- the node is new: its edges lead to nodes that are seen or put down now
      rw [step_of_not_mem ha] at hcovers hclosed ⊢
      have hhere : ReflTransGen (Edge edges) start a := h.sound a (.inr List.mem_cons_self)
      refine ⟨hcovers, ?_, ?_⟩
      · rintro b (hb | hb)
        · rcases List.mem_cons.mp hb with rfl | hb
          · exact hhere
          · exact h.sound b (.inl hb)
        · rcases List.mem_append.mp hb with hb | hb
          · exact hhere.tail (mem_above_iff.mp hb).1
          · exact h.sound b (.inr (List.mem_cons_of_mem a hb))
      · intro b hb c hc
        rcases List.mem_cons.mp hb with rfl | hb
        · by_cases hseen : c ∈ b :: seen
          · exact .inl hseen
          · exact .inr (List.mem_append_left rest (mem_above_iff.mpr ⟨hc, hseen⟩))
        · exact hclosed b hb c hc

theorem Explores.run (h : Explores edges start s) (n : Nat) :
    Explores edges start (s.run edges n) := by
  induction n generalizing s with
  | zero => exact h
  | succ n ih => exact ih h.step

/-- Going to a node uses up the edges that start there. -/
theorem length_above_le (edges : List (Nat × Nat)) {a : Nat} {seen : List Nat} (ha : a ∉ seen) :
    (above edges seen a).length + edges.countP (fun e => !(a :: seen).contains e.1) ≤
      edges.countP fun e => !seen.contains e.1 := by
  rw [above, List.length_map, ← List.countP_eq_length_filter]
  induction edges with
  | nil => exact Nat.le_refl 0
  | cons e edges ih =>
    simp only [List.countP_cons]
    -- an edge from the node is left before the step, one from another node after it as before
    have hedge : ((if (e.1 == a && !(a :: seen).contains e.2) = true then 1 else 0) +
        if (!(a :: seen).contains e.1) = true then 1 else 0) ≤
          if (!seen.contains e.1) = true then 1 else 0 := by
      by_cases he : e.1 = a
      · simp only [he, List.contains_cons, beq_self_eq_true, Bool.true_or]
        split <;> simp [ha]
      · simp [he]
    omega

/-- A step leaves less to do, unless nothing is left. -/
theorem left_step_lt (edges : List (Nat × Nat)) (hpending : s.pending ≠ []) :
    (s.step edges).left edges < s.left edges := by
  obtain ⟨seen, pending⟩ := s
  cases pending with
  | nil => exact absurd rfl hpending
  | cons a rest =>
    by_cases ha : a ∈ seen
    · rw [step_of_mem ha]
      simp only [left, List.length_cons]
      omega
    · have hedges := length_above_le edges ha
      rw [step_of_not_mem ha]
      simp only [left, List.length_append, List.length_cons]
      omega

theorem step_eq_self (hpending : s.pending = []) : s.step edges = s := by
  rw [step, hpending]

theorem run_eq_self (hpending : s.pending = []) (n : Nat) : s.run edges n = s := by
  induction n with
  | zero => rfl
  | succ n ih => rw [run, step_eq_self hpending, ih]

/-- **The search comes to its end**, cycle or not. -/
theorem pending_run_eq_nil {n : Nat} (hn : s.left edges ≤ n) : (s.run edges n).pending = [] := by
  induction n generalizing s with
  | zero =>
    have hlength : s.pending.length = 0 := by
      rw [left] at hn
      omega
    exact List.length_eq_zero_iff.mp hlength
  | succ n ih =>
    by_cases hpending : s.pending = []
    · rw [run_eq_self hpending, hpending]
    · have := left_step_lt edges hpending
      exact ih (by omega)

theorem left_start_le (edges : List (Nat × Nat)) (start : Nat) :
    left edges ⟨[], [start]⟩ ≤ edges.length + 1 := by
  have hedges : edges.countP (fun e => !([] : List Nat).contains e.1) ≤ edges.length :=
    List.countP_le_length
  simp only [left, List.length_singleton]
  omega

/-- A search that has come to its end has been where the edges lead. -/
theorem Explores.mem_seen_iff (h : Explores edges start s) (hend : s.pending = []) {a : Nat} :
    a ∈ s.seen ↔ ReflTransGen (Edge edges) start a := by
  have hstay : ∀ b, b ∈ s.seen ∨ b ∈ s.pending → b ∈ s.seen := by
    rintro b (hb | hb)
    · exact hb
    · rw [hend] at hb
      cases hb
  constructor
  · intro ha
    exact h.sound a (.inl ha)
  · intro hpath
    induction hpath with
    | refl => exact hstay start h.covers
    | tail _ hedge ih => exact hstay _ (h.closed _ ih _ hedge)

end Search

/-- **A path is found exactly where edges lead.** -/
theorem hasPath_iff {g : NameGraph} {lower upper : Nat} :
    g.hasPath lower upper = true ↔ ReflTransGen (Edge g.edges) lower upper := by
  rw [hasPath, List.contains_iff_mem]
  exact ((Search.explores_start g.edges lower).run _).mem_seen_iff
    (Search.pending_run_eq_nil (Search.left_start_le g.edges lower))

/-! ## The growth of the graph -/

/-- A graph whose **nodes are some names** and whose **edges are a relation** between them.
Different names have different nodes, and no edge is drawn twice. -/
structure Draws (g : NameGraph) (named : String → Prop) (below : String → String → Prop) :
    Prop where
  node_iff : ∀ name, (∃ i, g.node? name = some i) ↔ named name
  node_lt : ∀ name i, g.node? name = some i → i < g.nodes.length
  node_injective : ∀ name name' i, g.node? name = some i → g.node? name' = some i → name = name'
  edge_iff : ∀ lower upper, (lower, upper) ∈ g.edges ↔
    ∃ x y, g.node? x = some lower ∧ g.node? y = some upper ∧ below x y
  below_named : ∀ x y, below x y → named x ∧ named y
  edges_nodup : g.edges.Nodup

theorem draws_empty : Draws {} (fun _ => False) fun _ _ => False where
  node_iff name := by simp [node?]
  node_lt name i h := by cases h
  node_injective name name' i h := by cases h
  edge_iff lower upper := by simp
  below_named x y h := h.elim
  edges_nodup := List.nodup_nil

section Growth

variable {g : NameGraph} {named : String → Prop} {below : String → String → Prop} {name : String}

theorem node_of_some {i : Nat} (h : g.node? name = some i) : g.node name = (i, g) := by
  rw [node, h]

theorem node_of_none (h : g.node? name = none) :
    g.node name =
      (g.nodes.length, { g with nodes := g.nodes ++ [(name, g.nodes.length)] }) := by
  rw [node, h]

/-- A name gets a node, and those of the other names stay as they are. -/
theorem node?_node (g : NameGraph) (name x : String) :
    (g.node name).2.node? x = if x = name then some (g.node name).1 else g.node? x := by
  cases hname : g.node? name with
  | some i =>
    rw [node_of_some hname]
    split
    · next hx => rw [hx, hname]
    · rfl
  | none =>
    rw [node_of_none hname, node?, List.lookup_append]
    split
    · next hx =>
      rw [node?] at hname
      simp [hx, hname]
    · next hx =>
      have hother : (x == name) = false := beq_false_of_ne hx
      simp [node?, List.lookup_cons, hother]

theorem node?_node_self (g : NameGraph) (name : String) :
    (g.node name).2.node? name = some (g.node name).1 := by
  rw [node?_node, if_pos rfl]

theorem edges_node (g : NameGraph) (name : String) : (g.node name).2.edges = g.edges := by
  rw [node]
  split <;> rfl

/-- The nodes of names that have one stay as they are. -/
theorem Draws.node?_node_of_named (h : Draws g named below) {x : String} (hx : named x)
    (name : String) :
    (g.node name).2.node? x = g.node? x := by
  rw [node?_node]
  split
  · next heq =>
    obtain ⟨i, hi⟩ := (h.node_iff x).mpr hx
    rw [← heq, node_of_some hi, hi]
  · rfl

/-- **One more name.** -/
theorem Draws.node (h : Draws g named below) (name : String) :
    Draws (g.node name).2 (fun x => named x ∨ x = name) below where
  node_iff x := by
    rw [node?_node, ← h.node_iff]
    split
    · next hx => simp [hx]
    · next hx => simp [hx]
  node_lt x i hx := by
    cases hname : g.node? name with
    | some j =>
      rw [node_of_some hname] at hx ⊢
      exact h.node_lt x i hx
    | none =>
      rw [node?_node, node_of_none hname] at hx
      rw [node_of_none hname, List.length_append]
      split at hx
      · next heq =>
        cases hx
        exact Nat.lt_succ_self _
      · next hne => exact Nat.lt_succ_of_lt (h.node_lt x i hx)
  node_injective x y i hx hy := by
    cases hname : g.node? name with
    | some j =>
      rw [node_of_some hname] at hx hy
      exact h.node_injective x y i hx hy
    | none =>
      -- the new node is behind the others
      rw [node?_node, node_of_none hname] at hx hy
      split at hx <;> split at hy
      · next hx' hy' => rw [hx', hy']
      · cases hx
        exact absurd (h.node_lt y _ hy) (Nat.lt_irrefl _)
      · cases hy
        exact absurd (h.node_lt x _ hx) (Nat.lt_irrefl _)
      · exact h.node_injective x y i hx hy
  edge_iff lower upper := by
    rw [edges_node, h.edge_iff]
    refine exists_congr fun x => exists_congr fun y => ?_
    rw [← and_assoc, ← and_assoc]
    refine and_congr_left fun hbelow => ?_
    obtain ⟨hx, hy⟩ := h.below_named x y hbelow
    rw [h.node?_node_of_named hx, h.node?_node_of_named hy]
  below_named x y hbelow := (h.below_named x y hbelow).imp .inl .inl
  edges_nodup := by
    rw [edges_node]
    exact h.edges_nodup

theorem node?_addEdge (g : NameGraph) (lower upper : Nat) (x : String) :
    (g.addEdge lower upper).node? x = g.node? x := by
  rw [addEdge]
  split <;> rfl

theorem length_nodes_addEdge (g : NameGraph) (lower upper : Nat) :
    (g.addEdge lower upper).nodes.length = g.nodes.length := by
  rw [addEdge]
  split <;> rfl

theorem mem_edges_addEdge {lower upper : Nat} {e : Nat × Nat} :
    e ∈ (g.addEdge lower upper).edges ↔ e ∈ g.edges ∨ e = (lower, upper) := by
  rw [addEdge]
  split
  · next hold =>
    refine (or_iff_left_of_imp ?_).symm
    rintro rfl
    exact List.contains_iff_mem.mp hold
  · rw [List.mem_append, List.mem_singleton]

/-- **One more edge.** -/
theorem Draws.addEdge (h : Draws g named below) {a b : String} {lower upper : Nat}
    (ha : g.node? a = some lower) (hb : g.node? b = some upper) :
    Draws (g.addEdge lower upper) named fun x y => below x y ∨ x = a ∧ y = b where
  node_iff x := by rw [node?_addEdge, h.node_iff]
  node_lt x i hx := by
    rw [node?_addEdge] at hx
    rw [length_nodes_addEdge]
    exact h.node_lt x i hx
  node_injective x y i hx hy := by
    rw [node?_addEdge] at hx hy
    exact h.node_injective x y i hx hy
  edge_iff i j := by
    rw [mem_edges_addEdge, h.edge_iff, Prod.mk.injEq]
    simp only [node?_addEdge]
    constructor
    · rintro (⟨x, y, hx, hy, hbelow⟩ | ⟨rfl, rfl⟩)
      · exact ⟨x, y, hx, hy, .inl hbelow⟩
      · exact ⟨a, b, ha, hb, .inr ⟨rfl, rfl⟩⟩
    · rintro ⟨x, y, hx, hy, hbelow | ⟨rfl, rfl⟩⟩
      · exact .inl ⟨x, y, hx, hy, hbelow⟩
      · exact .inr ⟨Option.some.inj (hx.symm.trans ha), Option.some.inj (hy.symm.trans hb)⟩
  below_named x y hbelow := by
    rcases hbelow with hbelow | ⟨rfl, rfl⟩
    · exact h.below_named x y hbelow
    · exact ⟨(h.node_iff x).mp ⟨lower, ha⟩, (h.node_iff y).mp ⟨upper, hb⟩⟩
  edges_nodup := by
    rw [NameGraph.addEdge]
    split
    · exact h.edges_nodup
    · next hnew =>
      rw [List.contains_iff_mem] at hnew
      exact List.nodup_append_comm.mp (List.nodup_cons.mpr ⟨hnew, h.edges_nodup⟩)

theorem Draws.congr (h : Draws g named below) {named' : String → Prop}
    {below' : String → String → Prop}
    (hnamed : ∀ x, named x ↔ named' x) (hbelow : ∀ x y, below x y ↔ below' x y) :
    Draws g named' below' := by
  obtain rfl : named = named' := funext fun x => propext (hnamed x)
  obtain rfl : below = below' := funext fun x => funext fun y => propext (hbelow x y)
  exact h

theorem Draws.addAbove (h : Draws g named below) {a : String} {lower : Nat}
    (ha : g.node? a = some lower) (name : String) :
    Draws (g.addAbove lower name) (fun x => named x ∨ x = name)
      fun x y => below x y ∨ x = a ∧ y = name := by
  have hstays := h.node?_node_of_named ((h.node_iff a).mp ⟨lower, ha⟩) name
  exact (h.node name).addEdge (hstays.trans ha) (node?_node_self g name)

theorem node?_addAbove {lower : Nat} {a : String} (h : Draws g named below)
    (ha : g.node? a = some lower) (name : String) :
    (g.addAbove lower name).node? a = some lower := by
  rw [← ha, ← h.node?_node_of_named ((h.node_iff a).mp ⟨lower, ha⟩) name]
  exact node?_addEdge _ _ _ a

/-- Edges from one node to several names. -/
theorem Draws.foldl_addAbove (h : Draws g named below) {a : String} {lower : Nat}
    (ha : g.node? a = some lower) (names : List String) :
    Draws (names.foldl (NameGraph.addAbove lower) g) (fun x => named x ∨ x ∈ names)
      fun x y => below x y ∨ x = a ∧ y ∈ names := by
  induction names generalizing g named below with
  | nil => exact h.congr (by simp) (by simp)
  | cons name names ih =>
    refine (ih (h.addAbove ha name) (node?_addAbove h ha name)).congr ?_ ?_
    · intro x
      rw [List.mem_cons, or_assoc]
    · intro x y
      rw [List.mem_cons, or_assoc, and_or_left]

end Growth

end NameGraph

/-! ## The types of a project -/

namespace Project

/-- A type of the first name is among the declarations and has a supertype of the second. -/
def DirectlyBelow (added : List Declaration) (lower upper : String) : Prop :=
  ∃ t ∈ added, t.isType = true ∧ t.name = lower ∧ ∃ u ∈ t.superTypes, TypeName.simple u = upper

/-- A type among the declarations has this name, or a supertype of this name. -/
def Mentions (added : List Declaration) (name : String) : Prop :=
  ∃ t ∈ added, t.isType = true ∧ (t.name = name ∨ ∃ u ∈ t.superTypes, TypeName.simple u = name)

theorem DirectlyBelow.mono {added added' : List Declaration} (hsub : added ⊆ added')
    {lower upper : String} (h : DirectlyBelow added lower upper) :
    DirectlyBelow added' lower upper := by
  obtain ⟨t, ht, hbelow⟩ := h
  exact ⟨t, hsub ht, hbelow⟩

theorem mentions_concat {added : List Declaration} {d : Declaration} {name : String} :
    Mentions (added ++ [d]) name ↔ Mentions added name ∨
      d.isType = true ∧ (d.name = name ∨ ∃ u ∈ d.superTypes, TypeName.simple u = name) := by
  simp [Mentions, or_and_right, exists_or]

theorem directlyBelow_concat {added : List Declaration} {d : Declaration} {lower upper : String} :
    DirectlyBelow (added ++ [d]) lower upper ↔ DirectlyBelow added lower upper ∨
      d.isType = true ∧ d.name = lower ∧ ∃ u ∈ d.superTypes, TypeName.simple u = upper := by
  simp [DirectlyBelow, or_and_right, exists_or]

end Project

namespace NameGraph

open Project (DirectlyBelow Mentions mentions_concat directlyBelow_concat)

variable {g : NameGraph} {added : List Declaration}

/-- **One more declaration.** -/
theorem Draws.add (h : Draws g (Mentions added) (DirectlyBelow added)) (d : Declaration) :
    Draws (g.add d) (Mentions (added ++ [d])) (DirectlyBelow (added ++ [d])) := by
  rw [NameGraph.add]
  split
  · next htype =>
    refine ((h.node d.name).foldl_addAbove (node?_node_self g d.name)
      (d.superTypes.map TypeName.simple)).congr ?_ ?_
    · intro x
      rw [mentions_concat, and_iff_right htype, List.mem_map, or_assoc, eq_comm]
    · intro x y
      rw [directlyBelow_concat, and_iff_right htype, List.mem_map, eq_comm]
  · next htype =>
    refine h.congr ?_ ?_
    · intro x
      rw [mentions_concat, or_iff_left fun hd => htype hd.1]
    · intro x y
      rw [directlyBelow_concat, or_iff_left fun hd => htype hd.1]

/-- **All declarations**: the graph has the names that were met and the relation between them. -/
theorem draws_foldl (added : List Declaration) :
    Draws (added.foldl NameGraph.add {}) (Mentions added) (DirectlyBelow added) := by
  induction added using List.reverseRecOn with
  | nil => exact draws_empty.congr (by simp [Mentions]) (by simp [DirectlyBelow])
  | append_singleton added d ih =>
    rw [List.foldl_append]
    exact ih.add d

/-- Paths between names are paths between their nodes. -/
theorem Draws.hasPath_iff {named : String → Prop} {below : String → String → Prop}
    (h : Draws g named below) {x y : String} {lower upper : Nat} (hx : g.node? x = some lower)
    (hy : g.node? y = some upper) : g.hasPath lower upper = true ↔ ReflTransGen below x y := by
  rw [NameGraph.hasPath_iff]
  constructor
  · intro hpath
    induction hpath generalizing y with
    | refl =>
      rw [h.node_injective x y lower hx hy]
    | tail _ hedge ih =>
      obtain ⟨z, z', hz, hz', hbelow⟩ := (h.edge_iff _ _).mp hedge
      obtain rfl := h.node_injective z' y _ hz' hy
      exact (ih hz).tail hbelow
  · intro hpath
    induction hpath generalizing upper with
    | refl =>
      rw [Option.some.inj (hx.symm.trans hy)]
    | tail _ hbelow ih =>
      obtain ⟨i, hi⟩ := (h.node_iff _).mpr (h.below_named _ _ hbelow).1
      exact (ih hi).tail ((h.edge_iff _ _).mpr ⟨_, _, hi, hy, hbelow⟩)

/-- A path that is not empty leads between names of the graph. -/
theorem Draws.named_of_reflTransGen {named : String → Prop} {below : String → String → Prop}
    (h : Draws g named below) {x y : String} (hpath : ReflTransGen below x y) :
    x = y ∨ named x ∧ named y := by
  induction hpath with
  | refl => exact .inl rfl
  | tail _ hbelow ih =>
    obtain ⟨hlower, hupper⟩ := h.below_named _ _ hbelow
    rcases ih with rfl | ⟨hx, -⟩
    · exact .inr ⟨hlower, hupper⟩
    · exact .inr ⟨hx, hupper⟩

/-- **A declaration lies below a base type if and only if one of its supertypes leads up to it.** -/
theorem Draws.isSubtypeOf_iff {named : String → Prop} {below : String → String → Prop}
    (h : Draws g named below) {d : Declaration} {base : String} :
    g.isSubtypeOf d base = true ↔
      ∃ s ∈ d.superTypes, ReflTransGen below (TypeName.simple s) (TypeName.simple base) := by
  simp only [isSubtypeOf, List.any_eq_true, Bool.or_eq_true, beq_iff_eq]
  refine exists_congr fun s => and_congr_right fun _ => ?_
  constructor
  · rintro (heq | hfound)
    · rw [heq]
    · split at hfound
      · next hlower hupper => exact (h.hasPath_iff hlower hupper).mp hfound
      · cases hfound
  · intro hpath
    rcases h.named_of_reflTransGen hpath with heq | ⟨hlower, hupper⟩
    · exact .inl heq
    · obtain ⟨lower, hlower⟩ := (h.node_iff _).mpr hlower
      obtain ⟨upper, hupper⟩ := (h.node_iff _).mpr hupper
      rw [hlower, hupper]
      exact .inr ((h.hasPath_iff hlower hupper).mpr hpath)

end NameGraph

namespace Project

variable {p q : Project} {d : Declaration} {base : String}

theorem isSubtypeOf_iff :
    p.isSubtypeOf d base = true ↔
      ∃ s ∈ d.superTypes,
        ReflTransGen (DirectlyBelow p.added) (TypeName.simple s) (TypeName.simple base) :=
  (NameGraph.draws_foldl p.added).isSubtypeOf_iff

theorem isSubtypeOf_mono (hsub : p.added ⊆ q.added) (h : p.isSubtypeOf d base = true) :
    q.isSubtypeOf d base = true := by
  obtain ⟨s, hs, hreach⟩ := isSubtypeOf_iff.mp h
  refine isSubtypeOf_iff.mpr ⟨s, hs, ?_⟩
  exact ReflTransGen.mono (fun _ _ => DirectlyBelow.mono hsub) _ _ hreach

/-- Whether a declaration lies below a base type depends only on which declarations were added. -/
theorem isSubtypeOf_congr (h : ∀ t, t ∈ p.added ↔ t ∈ q.added) : p.isSubtypeOf = q.isSubtypeOf := by
  funext d base
  rw [Bool.eq_iff_iff]
  exact ⟨isSubtypeOf_mono fun t => (h t).mp, isSubtypeOf_mono fun t => (h t).mpr⟩

end Project

end AdLint
