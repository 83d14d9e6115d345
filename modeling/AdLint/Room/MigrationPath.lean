/-!
# Migration paths

The migrations of a database at version `n` must be exactly the steps from 1 to 2, from 2 to 3 and
so on up to `n`, in any order. The check walks the declared steps by increasing start and reports
the first point at which they leave this path.

## Main definitions

* `MigrationStep`, `MigrationPath.chain`: a declared step, and the steps a version demands
* `MigrationPath.defect?`: where declared steps first leave the path to a version
-/

namespace AdLint

/-- A declared migration from one version to another. -/
structure MigrationStep where
  source : Int
  target : Int
  deriving DecidableEq, Repr, Inhabited

/-- The text of a step. -/
def MigrationStep.shown (s : MigrationStep) : String := s!"{s.source} -> {s.target}"

/-- The first point at which declared steps leave the path. -/
inductive PathDefect where
  /-- A step stands where the one from `expected` to the next version is needed. -/
  | unexpectedStep (expected : Int) (step : MigrationStep)
  /-- The steps follow one another but stop before the target. -/
  | endsEarly (reached target : Int)
  /-- The steps follow one another and pass the target. -/
  | overshoots (reached target : Int)
  deriving DecidableEq, Repr, Inhabited

namespace PathDefect

/-- The text of a defect. -/
def message : PathDefect → String
  | unexpectedStep expected step =>
    let next := expected + 1
    s!"expected a migration {expected} -> {next} but found {step.shown}"
  | endsEarly reached target =>
    let next := min (reached + 1) target
    s!"migrations stop at version {reached}; missing {reached} -> {next}"
  | overshoots reached target =>
    s!"migrations reach version {reached} past the declared version {target}"

end PathDefect

namespace MigrationPath

/-- The step from a version to the next. -/
def stepFrom (version : Int) : MigrationStep := ⟨version, version + 1⟩

/-- The steps from version 1 that lead `n` versions up. -/
def chain (n : Nat) : List MigrationStep :=
  (List.range n).map fun (i : Nat) => stepFrom (i + 1 : Nat)

/-- The steps by increasing start; steps with one start keep their order. -/
def sorted (steps : List MigrationStep) : List MigrationStep :=
  steps.mergeSort fun a b => a.source ≤ b.source

/-- Follows steps from a version as long as each leads to the next one. The answer is the version
reached, or the first step that does not fit. -/
def follow (version : Int) : List MigrationStep → Except PathDefect Int
  | [] => .ok version
  | step :: rest =>
    if step == stepFrom version then follow (version + 1) rest
    else .error (.unexpectedStep version step)

/-- Where the steps first leave the path to the target, if they do. -/
def defect? (steps : List MigrationStep) (target : Int) : Option PathDefect :=
  match follow 1 (sorted steps) with
  | .error defect => some defect
  | .ok reached =>
    if reached < target then some (.endsEarly reached target)
    else if target < reached then some (.overshoots reached target)
    else none

/-- Whether the steps are exactly the path to the target. -/
def isComplete (steps : List MigrationStep) (target : Int) : Bool := (defect? steps target).isNone

end MigrationPath

end AdLint
