import AdLint.Project.Basic

/-!
# Constants

The value of an expression as far as it is known without running the program: literals, references
to fields that are initialized with such expressions, and concatenations of them. An expression that
stands inside more than eight references and concatenations is not looked at, so that a field
defined through itself has no value.

## Main definitions

* `Constant`: the value of an expression
* `Project.findField?`: the field a reference denotes
* `Project.evaluate?`: the value of an expression
* `Project.knownStart?`: the text that the value of an expression begins with
-/

namespace AdLint

/-- The value of an expression. -/
inductive Constant where
  | int (value : Int)
  | text (value : String)
  | truth (value : Bool)
  deriving DecidableEq, Repr, Inhabited

namespace Constant

/-- The text of a value inside a concatenation. -/
def shown : Constant → String
  | int value => toString value
  | text value => value
  | truth value => if value then "true" else "false"

/-- The literal with this value. -/
def toExpr : Constant → Expr
  | int value => .int value
  | text value => .text value
  | truth value => .truth value

/-- The value of an integer. -/
def asInt? : Constant → Option Int
  | int value => some value
  | _ => none

/-- The value of a truth value. -/
def asTruth? : Constant → Option Bool
  | truth value => some value
  | _ => none

/-- The value of a text. -/
def asText? : Constant → Option String
  | text value => some value
  | _ => none

end Constant

namespace Project

/-- The field of a type with this name; what is no type has no fields. -/
def memberField? (p : Project) (owner : Declaration) (name : String) : Option Declaration :=
  if owner.isType then (p.fieldsOf owner).find? fun f => f.name == name else none

/-- The first field of this name that stands in no declaration of the file. -/
def topLevelField? (p : Project) (file : Path) (name : String) : Option Declaration :=
  (p.inFile file).find? fun d => d.kind == .field && d.parent.isNone && d.name == name

/-- The field that a reference denotes. A qualified reference names the owner by its simple name. An
unqualified one is searched in the declarations around the scope, innermost first, and then among
the top-level fields of its file. -/
def findField? (p : Project) (scope : Option Declaration) (reference : String) :
    Option Declaration :=
  match Text.cutAtLast? '.' reference.toList with
  | some (qualifier, member) =>
    let owner := TypeName.simple (String.ofList qualifier)
    (p.typesNamed owner).findSome? fun t => p.memberField? t (String.ofList member)
  | none => do
    let scope ← scope
    ((p.ancestry scope).findSome? fun d => p.memberField? d reference).or
      (p.topLevelField? scope.location.file reference)

/-- The scope in which the initializer of a field is evaluated: the declaration around the field, or
the field itself when it stands in none. -/
def initializerScope (p : Project) (field : Declaration) : Declaration :=
  (p.parentOf? field).getD field

/-- The value of an expression when at most `levels` expressions may be looked at one inside the
other, itself included. The initializer of a field stands inside the reference to it, and an operand
inside the concatenation. -/
def evaluateWithin? (p : Project) : Nat → Option Declaration → Expr → Option Constant
  | 0, _, _ => none
  | _ + 1, _, .int value => some (.int value)
  | _ + 1, _, .text value => some (.text value)
  | _ + 1, _, .truth value => some (.truth value)
  | levels + 1, scope, .reference path => do
    let field ← p.findField? scope path
    let value ← field.initializer
    evaluateWithin? p levels (some (p.initializerScope field)) value
  | levels + 1, scope, .concat operands => do
    let values ← operands.mapM fun operand => evaluateWithin? p levels scope operand
    some (.text (String.join (values.map Constant.shown)))
  | _, _, _ => none

/-- How many references and concatenations an expression that is looked at may stand in. -/
def maxDepth : Nat := 8

/-- The value of an expression in a scope, if it is known. -/
def evaluate? (p : Project) (scope : Option Declaration) (e : Expr) : Option Constant :=
  p.evaluateWithin? (maxDepth + 1) scope e

/-- The integer that an expression is known to have as its value. -/
def evaluateInt? (p : Project) (scope : Option Declaration) (e : Expr) : Option Int :=
  (p.evaluate? scope e).bind Constant.asInt?

/-- The text of an operand whose value is a text or an integer. -/
def textualOperand? (p : Project) (scope : Option Declaration) (operand : Expr) : Option String :=
  match p.evaluate? scope operand with
  | some (.text value) => some value
  | some (.int value) => some (toString value)
  | _ => none

/-- The texts of the leading operands, up to the first that is not known. -/
def leadingTexts (p : Project) (scope : Option Declaration) : List Expr → List String
  | [] => []
  | operand :: rest =>
    match p.textualOperand? scope operand with
    | some text => text :: leadingTexts p scope rest
    | none => []

/-- The text that the value of an expression is known to begin with. Of a concatenation, the known
operands at its start count. -/
def knownStart? (p : Project) (scope : Option Declaration) (e : Expr) : Option String :=
  match e with
  | .concat operands =>
    let start := String.join (p.leadingTexts scope operands)
    if start.isEmpty then none else some start
  | e => (p.evaluate? scope e).bind Constant.asText?

end Project

end AdLint
