import AdLint.Location
import AdLint.TypeName

/-!
# Expressions and annotations

The checks look at few kinds of expressions: constants, references to constants, what an initializer
runs, and the arguments of annotations and calls. An `Expr` keeps those and the text of all others.

## Main definitions

* `Expr`: an expression as far as the checks look at it
* `Annot`: a use of an annotation with its arguments
* `Expr.items`, `Expr.operands`: the parts of lists and of concatenations
* `Expr.isInert`: whether evaluating an expression runs no code
* `Annot.argument?`, `Annot.argumentAt?`: arguments by name and by position
-/

namespace AdLint

/-- An argument of an annotation; a positional one has no name. -/
structure ArgumentOf (ε : Type) where
  name : Option String
  value : ε
  location : Location
  deriving Inhabited

/-- A use of an annotation, with its name as written. -/
structure AnnotOf (ε : Type) where
  name : String
  arguments : List (ArgumentOf ε)
  location : Location
  deriving Inhabited

/-- An expression as far as the checks look at it. -/
inductive Expr where
  | int (value : Int)
  | text (value : String)
  | truth (value : Bool)
  | null
  /-- A literal of another kind, as written. -/
  | literal (written : String)
  /-- An identifier or a dotted path. -/
  | reference (path : String)
  | classLiteral (type : String)
  | array (items : List Expr)
  | annot (use : AnnotOf Expr)
  | call (receiver : Option String) (name : String)
  /-- The creation of an object of a type. -/
  | create (type : String)
  | lambda
  /-- The operands of a concatenation, in order. -/
  | concat (operands : List Expr)
  /-- Any other expression, as written. -/
  | other (written : String)
  deriving Inhabited

/-- An argument of an annotation. -/
abbrev Argument := ArgumentOf Expr

/-- A use of an annotation. -/
abbrev Annot := AnnotOf Expr

namespace Expr

/-- The value of an integer literal. -/
def asInt? : Expr → Option Int
  | int value => some value
  | _ => none

/-- The value of a truth literal. -/
def asTruth? : Expr → Option Bool
  | truth value => some value
  | _ => none

/-- The value of a text literal. -/
def asText? : Expr → Option String
  | text value => some value
  | _ => none

/-- The items of an expression that is a list. -/
def items : Expr → List Expr
  | array items => items
  | _ => []

/-- The operands that an expression adds to a concatenation. -/
def operands : Expr → List Expr
  | concat operands => operands
  | e => [e]

/-- The expression of an operand after an operator; a sign applies to integers only. -/
def signed (written : String) (operator : Option String) (operand : Option Expr) : Expr :=
  match operator, operand with
  | some "-", some (int value) => int (-value)
  | some "+", some (int value) => int value
  | _, _ => other written

mutual

/-- Whether evaluating an expression runs no code and loads no class. An expression of unknown shape
counts as inert: nothing is reported without proof of a call. -/
def isInert : Expr → Bool
  | array items => areInert items
  | concat operands => areInert operands
  | annot _ | call .. | create _ | lambda => false
  | _ => true

/-- Whether all expressions of a list are inert. -/
def areInert : List Expr → Bool
  | [] => true
  | e :: es => isInert e && areInert es

end

/-- A short description for messages. -/
def describe : Expr → String
  | call (some receiver) name => s!"call to {receiver}.{name}()"
  | call none name => s!"call to {name}()"
  | create type => s!"construction of {type}"
  | lambda => "lambda"
  | annot use => "@" ++ use.name
  | array _ => "array"
  | concat _ => "string concatenation"
  | int value => toString value
  | text value => "\"" ++ value ++ "\""
  | truth value => if value then "true" else "false"
  | null => "null"
  | literal written | reference written | other written => written
  | classLiteral type => type ++ ".class"

mutual

/-- The text literals of an expression, those of arrays at any depth included. -/
def texts : Expr → List String
  | text value => [value]
  | array items => textsOf items
  | _ => []

/-- The text literals of a list of expressions. -/
def textsOf : List Expr → List String
  | [] => []
  | e :: es => texts e ++ textsOf es

end

end Expr

namespace AnnotOf

/-- The name without its package. -/
def simpleName {ε : Type} (a : AnnotOf ε) : String := Text.lastDotted a.name

/-- Whether an annotation has this name, both compared without their packages. -/
def named {ε : Type} (a : AnnotOf ε) (name : String) : Bool := a.simpleName == TypeName.simple name

/-- The first argument with this name. -/
def namedArgument? {ε : Type} (a : AnnotOf ε) (name : String) : Option (ArgumentOf ε) :=
  a.arguments.find? fun argument => argument.name == some name

/-- The positional arguments. -/
def positional {ε : Type} (a : AnnotOf ε) : List (ArgumentOf ε) :=
  a.arguments.filter fun argument => argument.name.isNone

/-- The argument with this name. The first positional argument answers to `value`. -/
def argument? {ε : Type} (a : AnnotOf ε) (name : String) : Option (ArgumentOf ε) :=
  (a.namedArgument? name).or (if name == "value" then a.positional.head? else none)

/-- The argument with this name, or else the positional one at `position`. -/
def argumentAt? {ε : Type} (a : AnnotOf ε) (name : String) (position : Nat) :
    Option (ArgumentOf ε) :=
  (a.namedArgument? name).or a.positional[position]?

/-- The text literals among the arguments, those of arrays included. -/
def texts (a : Annot) : List String := Expr.textsOf (a.arguments.map fun argument => argument.value)

end AnnotOf

end AdLint
