import AdLint.Text.Blank

/-!
# Paths

A path keeps the text it was written with and is compared by its components, so that `a//A`, `a/A`
and `a/./A` are one path while `./A` and `A` are two. A leading dot is a component of its own; a dot
or an empty segment further on is none.

## Main definitions

* `Path.components`: the components of a path
* `Path.same`, `Path.compare`: equality and order by components
* `Path.join`, `Path.relativeTo?`: gluing a path to a directory, and taking the directory off again
* `Path.fileName?`, `Path.stem?`, `Path.extension?`: the parts of the last component
-/

namespace AdLint

/-- One step of a path. -/
inductive Component where
  | root
  | current
  | parent
  | named (name : String)
  deriving DecidableEq, Repr, Inhabited

namespace Component

/-- The place of a kind of component in the order of paths. -/
def rank : Component → Nat
  | root => 0
  | current => 1
  | parent => 2
  | named _ => 3

/-- The order of components: the root, the current directory, the parent, then names by code
points. -/
def compare (a b : Component) : Ordering :=
  match a, b with
  | named x, named y => Ord.compare x y
  | a, b => Ord.compare a.rank b.rank

end Component

/-- A path as it was written. -/
structure Path where
  text : String
  deriving DecidableEq, Repr, Inhabited

namespace Path

/-- The component that a segment between slashes stands for. -/
def ofSegment (segment : List Char) : Option Component :=
  if segment.isEmpty || segment == ['.'] then none
  else if segment == ['.', '.'] then some .parent
  else some (.named (String.ofList segment))

/-- How a path begins, and the segments after that. -/
def parts (p : Path) : Option Component × List (List Char) :=
  match Text.pieces '/' p.text.toList with
  | [] :: segment :: rest => (some .root, segment :: rest)
  | ['.'] :: rest => (some .current, rest)
  | segments => (none, segments)

/-- The components of a path. -/
def components (p : Path) : List Component :=
  p.parts.1.toList ++ p.parts.2.filterMap ofSegment

/-- Whether two paths have the same components. -/
def same (p q : Path) : Bool := p.components == q.components

/-- The order of paths, component by component. -/
def compareComponents : List Component → List Component → Ordering
  | [], [] => .eq
  | [], _ :: _ => .lt
  | _ :: _, [] => .gt
  | a :: as, b :: bs => (a.compare b).then (compareComponents as bs)

/-- The order of two paths by their components. -/
def compare (p q : Path) : Ordering := compareComponents p.components q.components

/-- Whether a path starts at the root. -/
def isAbsolute (p : Path) : Bool := p.text.toList.head? == some '/'

/-- The path `q` as seen from the directory `p`. -/
def join (p q : Path) : Path :=
  if q.isAbsolute then q
  else if p.text.isEmpty || p.text.toList.getLast? == some '/' then ⟨p.text ++ q.text⟩
  else ⟨p.text ++ "/" ++ q.text⟩

/-- Whether a segment between slashes is no component. -/
def isVoid (segment : List Char) : Bool := (ofSegment segment).isNone

/-- Segments with slashes between them. -/
def glue (segments : List (List Char)) : String :=
  String.ofList ((segments.intersperse ['/']).flatten)

/-- The segments that follow the given components, if the list begins with those. -/
def segmentsAfter? : List Component → List (List Char) → Option (List (List Char))
  | [], segments => some segments
  | c :: cs, segments =>
    match segments.dropWhile isVoid with
    | s :: rest => if ofSegment s == some c then segmentsAfter? cs rest else none
    | [] => none

/-- The text of a beginning and the segments after it, without slashes and dots at the end. -/
def textFrom (start : Option Component) (segments : List (List Char)) : String :=
  let rest := Text.dropEndWhile isVoid segments
  match start with
  | some .root => "/" ++ glue rest
  | some .current => glue (['.'] :: rest)
  | _ => glue rest

/-- The path without the directory `base` in front, if it lies below it. What is left keeps its
text, except for slashes and dots at its ends. -/
def relativeTo? (p base : Path) : Option Path :=
  let (start, segments) := p.parts
  match base.components with
  | [] => some ⟨textFrom start segments⟩
  | c :: cs =>
    let rest? :=
      match start with
      | some first => if first == c then segmentsAfter? cs segments else none
      | none => segmentsAfter? (c :: cs) segments
    rest?.map fun rest => ⟨textFrom none (rest.dropWhile isVoid)⟩

/-- The last component, if it is a name. -/
def fileName? (p : Path) : Option String :=
  match p.components.getLast? with
  | some (.named name) => some name
  | _ => none

/-- The parts of a file name before and after its last dot. A dot at the very start does not divide
the name. -/
def splitName (name : String) : String × Option String :=
  match Text.cutAtLast? '.' name.toList with
  | some (before, after) =>
    if before.isEmpty then (name, none) else (String.ofList before, some (String.ofList after))
  | none => (name, none)

/-- The last component without its extension. -/
def stem? (p : Path) : Option String := p.fileName?.map fun name => (splitName name).1

/-- The part of the last component after its last dot. -/
def extension? (p : Path) : Option String := p.fileName?.bind fun name => (splitName name).2

end Path

end AdLint
