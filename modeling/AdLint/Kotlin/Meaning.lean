import AdLint.Expr
import AdLint.Kotlin.Kind
import AdLint.Source.Literal

/-!
# What Kotlin expressions mean to the checks

Every node of a tree has an expression, made from the expressions of its parts. It depends on where
the node stands: among arguments, a call of a capitalized name is the use of an annotation.

## Main definitions

* `Reading`: the expression of a node, by where it stands
* `expr`: the expression of a node
* `annot?`: the annotation that a node writes
* `callee?`: what a call is made on, and its name
-/

namespace AdLint.Kotlin

/-- The expression of a node; the flag says that it stands among arguments. -/
abbrev Reading := Bool → Expr

/-- Parts of a node, each with its reading. -/
abbrev Parts := List (Node × Reading)

/-- The first node of a kind. -/
def ofKind? (nodes : List Node) (kind : Kind) : Option Node :=
  nodes.find? fun node => node.kind == kind

namespace Parts

/-- The first part of a kind. -/
def ofKind? (parts : Parts) (kind : Kind) : Option (Node × Reading) :=
  parts.find? fun part => part.1.kind == kind

/-- The parts that are not plain tokens. -/
def named (parts : Parts) : Parts := parts.filter fun part => part.1.isNamed

/-- The nodes of the parts. -/
def nodes (parts : Parts) : List Node := parts.map fun part => part.1

end Parts

/-- Whether a text begins with an upper-case letter. -/
def isCapitalized (name : String) : Bool := Text.startsUpper name

/-- What a call with these parts is made on, if anything, and its name. -/
def callee? (s : Source) (parts : List Node) : Option (Option String × String) :=
  match parts.find? Tree.isNamed with
  | some callee =>
    match callee.kind with
    | .name => some (none, s.slice callee.span)
    | .navigation => do
      let receiver ← callee.parts.find? Tree.isNamed
      let suffix ← ofKind? callee.parts .navigationSuffix
      let name ← ofKind? suffix.parts .name
      some (some (Text.compact (s.slice receiver.span)), s.slice name.span)
    | _ => none
  | none => none

/-- The arguments in parentheses that have a value. The word `null` is no value. -/
def argumentNodes (parts : List Node) : List Node :=
  parts.filter fun part => part.kind == .valueArgument && !part.namedParts.isEmpty

/-- An argument with its expression. -/
def argumentOf (s : Source) (node : Node) (value : Expr) : Argument :=
  { name :=
      if node.parts.any fun part => !part.isNamed && s.slice part.span == "=" then
        (ofKind? node.parts .name).map fun name => s.slice name.span
      else none
    value
    location := s.locate node.span node.span }

/-- The arguments in the parentheses inside a node, whose reading lists their expressions. -/
def argumentsIn (s : Source) (node : Node) (reading : Reading) : List Argument :=
  match ofKind? node.parts .valueArguments with
  | some list => List.zipWith (argumentOf s) (argumentNodes list.parts) (reading true).items
  | none => []

/-- The annotation that a node with these parts writes. Of several in brackets it is the first with
arguments. -/
def annotOf? (s : Source) (span : Span) (parts : Parts) : Option Annot :=
  match parts.ofKind? .constructorCall with
  | some (call, reading) => do
    let type ← ofKind? call.parts .userType
    some
      { name := Text.compact (s.slice type.span)
        arguments := argumentsIn s call reading
        location := s.locate span span }
  | none => do
    let (type, _) ← parts.ofKind? .userType
    some
      { name := Text.compact (s.slice type.span)
        arguments := []
        location := s.locate span span }

/-- The expression of a text literal. One with a dollar sign keeps its plain start, so that the
start of its value is known. -/
def textOf (written : String) : Expr :=
  if written.toList.contains '$' then
    let start := (Literal.unquote written).toList.takeWhile fun c => c != '$'
    if start.isEmpty then .other written else .concat [.text (String.ofList start), .other written]
  else .text (Literal.unquote written)

/-- The receiver of a call of a capitalized name: a type is one, a package is none. -/
def typeReceiver (receiver : Option String) : Option String :=
  receiver.bind fun r => if isCapitalized (Text.lastDotted r) then some r else none

/-- The expression of a call with these parts. -/
def callOf (s : Source) (span : Span) (parts : Parts) (amongArguments : Bool) : Expr :=
  match callee? s parts.nodes with
  | some (receiver, name) =>
    if isCapitalized name then
      if receiver.isNone && amongArguments then
        let arguments := match parts.ofKind? .callSuffix with
          | some (suffix, reading) => argumentsIn s suffix reading
          | none => []
        .annot { name, arguments, location := s.locate span span }
      else
        match typeReceiver receiver with
        | some r => .call (some r) name
        | none => .create name
    else .call receiver name
  | none => .other (s.slice span)

/-- The expression of an operand after an operator; a sign applies to integers only. -/
def signedOf (s : Source) (written : String) (parts : Parts) (amongArguments : Bool) : Expr :=
  let operator := (parts.find? fun part => !part.1.isNamed).map fun part => s.slice part.1.span
  let operand : Option Expr := parts.named.getLast?.map fun part => part.2 amongArguments
  .signed written operator operand

/-- The expression of a sum. -/
def sumOf (s : Source) (written : String) (parts : Parts) (amongArguments : Bool) : Expr :=
  let isPlus := parts.any fun part => !part.1.isNamed && s.slice part.1.span == "+"
  if isPlus && parts.named.length == 2 then
    .concat (parts.named.flatMap fun part => (part.2 amongArguments).operands)
  else .other written

/-- The type in a text that ends with `::class`. -/
def classLiteral? (written : String) : Option String :=
  let cs := Text.trimEndChars written.toList
  let mark := "::class".toList
  if (Text.beforeEnd? mark cs).isSome then
    some (TypeName.simple (Text.compact (String.ofList (Text.dropEndAll mark cs))))
  else none

/-- The reading of a node that is no class literal. Where a collection misses an item, a name
without text takes its place. -/
def plainReadingOf (s : Source) (kind : Kind) (span : Span) (parts : Parts)
    (amongArguments : Bool) :
    Expr :=
  let written := s.slice span
  match kind with
  | .integer => ((Literal.integer? written).map Expr.int).getD (.literal written)
  | .text => textOf written
  | .truth => .truth (written == "true")
  | .literal => .literal written
  | .name => .reference written
  | .navigation => .reference (Text.compact written)
  | .lambda => .lambda
  | .gap => .reference ""
  | .collection => .array (parts.named.map fun part => part.2 amongArguments)
  | .annot => ((annotOf? s span parts).map Expr.annot).getD (.other written)
  | .call => callOf s span parts amongArguments
  | .objectLiteral => .create "object"
  | .parenthesized | .cast =>
    (parts.named.head?.map fun part => part.2 amongArguments).getD (.other written)
  | .signed => signedOf s written parts amongArguments
  | .additive => sumOf s written parts amongArguments
  | _ => if written == "null" then .null else .other written

/-- The reading of a node. Of an argument it is the reading of its value, and of parentheses with
arguments, and what holds them, the list of these. -/
def readingOf (s : Source) (kind : Kind) (span : Span) (parts : Parts) : Reading :=
  fun amongArguments =>
  match kind with
  | .valueArgument => (parts.named.getLast?.map fun part => part.2 true).getD .null
  | .valueArguments =>
    .array ((parts.filter fun part =>
      part.1.kind == .valueArgument && !part.1.namedParts.isEmpty).map fun part => part.2 true)
  | .constructorCall | .callSuffix =>
    ((parts.ofKind? .valueArguments).map fun part => part.2 true).getD (.array [])
  | _ =>
    match classLiteral? (s.slice span) with
    | some type => .classLiteral type
    | none => plainReadingOf s kind span parts amongArguments

/-- The expression of a node. -/
def expr (s : Source) (node : Node) (amongArguments : Bool) : Expr :=
  node.fold (readingOf s) amongArguments

/-- The annotation that a node writes. -/
def annot? (s : Source) (node : Node) : Option Annot :=
  annotOf? s node.span (Tree.foldParts (readingOf s) node.parts)

end AdLint.Kotlin
