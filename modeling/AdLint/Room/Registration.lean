import AdLint.Project.Names
import AdLint.Project.Constant

/-!
# The registration class

A project registers its databases as fields of a registration class. The fields of types nested in
it and of companion objects count too. A database is registered when a field has its type: the
qualified names are compared where both are known, and the simple names otherwise.

## Main definitions

* `Registration.collect`: the field types of all registration classes of a project
* `Registration.registers`: whether a database is among them
-/

namespace AdLint

/-- The type of a field of a registration class. -/
structure RegisteredType where
  simple : String
  /-- The qualified type, where the file of the field settles it. -/
  qualified : Option String
  deriving DecidableEq, Repr, Inhabited

/-- The registration classes of a project and the types of their fields. -/
structure Registration where
  classes : List String
  types : List RegisteredType
  deriving Repr, Inhabited

namespace Registration

/-- The fields of a type and of the types nested in it, nested at most `n` deep. -/
def fieldsBelow (p : Project) : Nat → Declaration → List Declaration
  | 0, d => p.fieldsOf d
  | n + 1, d =>
    p.fieldsOf d ++ ((p.children d.id).filter Declaration.isType).flatMap (fieldsBelow p n)

/-- The type of a field, if it has one. -/
def typeOf? (p : Project) (field : Declaration) : Option RegisteredType :=
  field.typeName.map fun written =>
    { simple := TypeName.simple written
      qualified := p.qualifyType? field.location.file written }

/-- The registration classes of this name, with the types of their fields. Types are nested no
deeper than there are declarations. -/
def collect (p : Project) (className : String) : Registration :=
  let classes := p.types.filter fun d => d.name == className
  { classes := classes.map fun d => d.name
    types := (classes.flatMap (fieldsBelow p p.added.length)).filterMap (typeOf? p) }

/-- Whether there is a registration class. -/
def isFound (r : Registration) : Bool := !r.classes.isEmpty

/-- Whether a database with this name is registered. -/
def registers (r : Registration) (database : String) (qualified : Option String) : Bool :=
  (r.types.filter fun t => t.simple == TypeName.simple database).any fun t =>
    match qualified, t.qualified with
    | some q, some registered => q == registered
    | _, _ => true

end Registration

end AdLint
