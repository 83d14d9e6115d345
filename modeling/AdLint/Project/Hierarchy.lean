import AdLint.Project.Basic

/-!
# Subtypes

Types compare by simple name. The names are the nodes of a graph in which an edge leads from each
type to each type that it extends or implements. The graph grows with every type that is added:
types of one name share a node, a name that is declared nowhere has one as well, and no edge is
drawn twice. A declaration lies below a base type if a path leads to it from one of the
declaration's supertypes.

## Main definitions

* `NameGraph`, `NameGraph.add`: the graph of names, and the graph with one more declaration
* `NameGraph.hasPath`: whether a path leads from one node to another
* `Project.isSubtypeOf`: whether a declaration lies below a base type
-/

namespace AdLint

/-- The names of types as nodes, with edges from each type to the types directly above it. -/
structure NameGraph where
  /-- The nodes of the names, numbered in the order in which the names came. -/
  nodes : List (String × Nat) := []
  edges : List (Nat × Nat) := []
  deriving DecidableEq, Repr, Inhabited

namespace NameGraph

/-- The node of a name. -/
def node? (g : NameGraph) (name : String) : Option Nat := g.nodes.lookup name

/-- The node of a name, and the graph with that node. -/
def node (g : NameGraph) (name : String) : Nat × NameGraph :=
  match g.node? name with
  | some i => (i, g)
  | none => (g.nodes.length, { g with nodes := g.nodes ++ [(name, g.nodes.length)] })

/-- The graph with an edge, unless it is there already. -/
def addEdge (g : NameGraph) (lower upper : Nat) : NameGraph :=
  if g.edges.contains (lower, upper) then g
  else { g with edges := g.edges ++ [(lower, upper)] }

/-- The graph with an edge from a node to a name. -/
def addAbove (lower : Nat) (g : NameGraph) (name : String) : NameGraph :=
  let (upper, g) := g.node name
  g.addEdge lower upper

/-- The graph with one more declaration. -/
def add (g : NameGraph) (d : Declaration) : NameGraph :=
  if d.isType then
    let (lower, g) := g.node d.name
    (d.superTypes.map TypeName.simple).foldl (addAbove lower) g
  else g

/-- A search along the edges: the nodes that it has been at, and those that it still has to go
to. -/
structure Search where
  seen : List Nat
  pending : List Nat
  deriving DecidableEq, Repr, Inhabited

/-- The nodes that edges lead to from a node, without it and those that the search has been at. -/
def Search.above (edges : List (Nat × Nat)) (seen : List Nat) (a : Nat) : List Nat :=
  (edges.filter fun e => e.1 == a && !(a :: seen).contains e.2).map Prod.snd

/-- One step of a search: it goes to the next node, unless it has been there, and puts the nodes
above that one before the others. -/
def Search.step (edges : List (Nat × Nat)) (s : Search) : Search :=
  match s.pending with
  | [] => s
  | a :: rest =>
    if s.seen.contains a then { s with pending := rest }
    else { seen := a :: s.seen, pending := above edges s.seen a ++ rest }

/-- So many steps of a search. -/
def Search.run (edges : List (Nat × Nat)) : Nat → Search → Search
  | 0, s => s
  | n + 1, s => run edges n (s.step edges)

/-- Whether a path leads from one node to another; the empty path leads from a node to itself. Each
step of the search but the first goes to where another edge leads, so it has no more steps than
that. -/
def hasPath (g : NameGraph) (lower upper : Nat) : Bool :=
  (Search.run g.edges (g.edges.length + 1) ⟨[], [lower]⟩).seen.contains upper

/-- Whether a declaration extends or implements `base`, directly or along the edges. -/
def isSubtypeOf (g : NameGraph) (d : Declaration) (base : String) : Bool :=
  let base := TypeName.simple base
  let target := g.node? base
  d.superTypes.any fun written =>
    let name := TypeName.simple written
    name == base ||
      match g.node? name, target with
      | some lower, some upper => g.hasPath lower upper
      | _, _ => false

end NameGraph

namespace Project

/-- The graph of the types that were added to a project. -/
def hierarchy (p : Project) : NameGraph := p.added.foldl NameGraph.add {}

/-- Whether a declaration extends or implements `base`, directly or through other types of the
project. -/
def isSubtypeOf (p : Project) (d : Declaration) (base : String) : Bool :=
  p.hierarchy.isSubtypeOf d base

end Project

end AdLint
