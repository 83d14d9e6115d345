import AdLint.Kotlin.Outline
import AdLint.Proofs.FormedReaders

/-!
# The shape of the tree of a Kotlin file

A call consists of what is called and of what it is called with: arguments in parentheses, a lambda
behind them, or both. No other rule of the grammar makes a call, so a call always has a part with
the arguments, beside the part that names what is called.

## Main definitions

* `Kotlin.promise`: what the grammar promises of the nodes of a tree

## Main results

* `Kotlin.Grammar.keeps_grammar`: the rules keep the promise
* `Kotlin.everyIn_tree`: the tree of every text is as promised
-/

namespace AdLint.Kotlin

open Reader
open AdLint.Tree (EveryIn EndsIn Firm Solid Supplies SuppliesAll)

/-- The parts that every node of a kind has. -/
@[reducible]
def needs : Kind → List (Need Kind)
  | .call => [.kind .callSuffix]
  | _ => []

/-- What is promised of the nodes of a Kotlin file. -/
@[reducible]
def promise : Promise Kind where
  needs := needs
  reserves := fun _ => none
  starts := fun _ => True
  needs_comment := rfl
  needs_token := rfl
  reserves_plain := rfl

instance : Substance (NodeKind.token : Kind) := ⟨rfl⟩
instance : Substance Kind.callSuffix := ⟨rfl⟩
instance : Substance Kind.valueArguments := ⟨rfl⟩
instance : Substance Kind.lambda := ⟨rfl⟩
instance : Substance Kind.other := ⟨rfl⟩

namespace Grammar

section Rules

variable {self : Rules} [∀ g, Keeps promise (self g)]

/-! ## Rules that several goals share -/

instance : Keeps promise identifier := by
  dsimp only [identifier]; infer_instance

instance : Keeps promise typeIdentifier := by
  dsimp only [typeIdentifier]; infer_instance

instance {r : Rule} [Keeps promise r] : Keeps promise (commaList r) := by
  dsimp only [commaList]; infer_instance

instance {layout : Layout} {r : Rule} [Keeps promise r] : Keeps promise (onward layout r) := by
  dsimp only [onward]; infer_instance

instance : Keeps promise (typeArguments self) := by
  dsimp only [typeArguments]; infer_instance

instance : Keeps promise (userType self) := by
  dsimp only [userType]; infer_instance

instance : Keeps promise (functionTypeParameters self) := by
  dsimp only [functionTypeParameters]; infer_instance

instance : Keeps promise questionMarks := by
  dsimp only [questionMarks]; infer_instance

instance : Keeps promise (typeParameters self) := by
  dsimp only [typeParameters]; infer_instance

instance : Keeps promise (typeConstraints self) := by
  dsimp only [typeConstraints]; infer_instance

instance : Keeps promise (annotCall self) := by
  dsimp only [annotCall]; infer_instance

instance : Keeps promise (modifiers self) := by
  dsimp only [modifiers]; infer_instance

instance : Keeps promise (oneVariable self) := by
  dsimp only [oneVariable]; infer_instance

instance : Keeps promise (variableList self) := by
  dsimp only [variableList]; infer_instance

instance : Keeps promise (block self) := by
  dsimp only [block]; infer_instance

instance {layout : Layout} : Keeps promise (branchBody self layout) := by
  dsimp only [branchBody]; infer_instance

instance : Keeps promise (lambda self) := by
  dsimp only [lambda]; infer_instance

instance : Keeps promise (parameters self) := by
  dsimp only [parameters, parameter]; infer_instance

instance : Keeps promise (functionBody self) := by
  dsimp only [functionBody]; infer_instance

instance {layout : Layout} : Keeps promise (delegations self layout) := by
  dsimp only [delegations, delegation]; infer_instance

/-! ## Suffixes and operators -/

instance : KeepsStep promise (typeSuffix? self) where
  augments_step ts := by dsimp only [typeSuffix?]; infer_instance

instance {layout : Layout} [Yields Solid (self .valueArguments)] :
    KeepsStep promise (suffix? self layout) where
  augments_step ts := by
    have hlambda : Yields Solid (trailingLambda self) := by
      dsimp only [trailingLambda, lambda]; infer_instance
    have htrailing : Keeps promise (trailingLambda self) := by
      dsimp only [trailingLambda]; infer_instance
    dsimp only [suffix?]
    infer_instance

instance {layout : Layout} : KeepsStep promise (assignment? self layout) where
  augments_step ts := by dsimp only [assignment?]; infer_instance

instance {level : Nat} {kind : Kind} {operator operand : Rule} {ts : List Token}
    [Needless (needs kind)] [Keeps promise operator] [Keeps promise operand] :
    Chain.Leads promise ts (linkOf? level kind operator operand ts) := by
  dsimp only [linkOf?]; infer_instance

instance {layout : Layout} : Chain.KeepsLink promise (link? self layout) where
  leads ts := by
    -- a sum is told apart from the other chains of operators
    have hsum : ∀ level : Nat, Needless (needs (if level == 9 then .additive else .other)) := by
      intro level
      split <;> infer_instance
    dsimp only [link?]
    infer_instance

/-! ## The rules of all goals -/

instance {layout : Layout} : Keeps promise (primaryStart self layout) := by
  have hobject : Keeps promise (objectLiteral self) := by dsimp only [objectLiteral]; infer_instance
  have hfunction : Keeps promise (anonymousFunction self) := by
    dsimp only [anonymousFunction]; infer_instance
  have hif : Keeps promise (ifExpression self layout) := by
    dsimp only [ifExpression]; infer_instance
  have hwhen : Keeps promise (whenExpression self) := by dsimp only [whenExpression]; infer_instance
  have htry : Keeps promise (tryExpression self) := by dsimp only [tryExpression]; infer_instance
  have hjump : Keeps promise (jump self layout) := by dsimp only [jump]; infer_instance
  have htext : Keeps promise (text self) := by dsimp only [text]; infer_instance
  have hcollection : Keeps promise (collection self) := by
    dsimp only [collection, keyword]; infer_instance
  dsimp only [primaryStart, callableReference, literal, selfReference]
  infer_instance

instance : Keeps promise (receiver self) := by
  dsimp only [receiver]; infer_instance

instance : Keeps promise (accessor self) := by
  dsimp only [accessor, parameter]; infer_instance

instance : Keeps promise (objectRest self) := by
  dsimp only [objectRest]; infer_instance

instance : Keeps promise (classDeclaration self) := by
  have hconstructor : Keeps promise (primaryConstructor self) := by
    dsimp only [primaryConstructor, classParameter]; infer_instance
  have henum : Keeps promise (enumBody self) := by dsimp only [enumBody]; infer_instance
  dsimp only [classDeclaration]
  infer_instance

instance : Keeps promise (localDeclaration self) := by
  have hobject : Keeps promise (objectDeclaration self) := by
    dsimp only [objectDeclaration]; infer_instance
  have hfunction : Keeps promise (function self) := by dsimp only [function]; infer_instance
  have hproperty : Keeps promise (property self) := by dsimp only [property]; infer_instance
  have halias : Keeps promise (typeAlias self) := by dsimp only [typeAlias]; infer_instance
  refine keeps_choice fun ts => ?_
  split
  · split_ifs <;> infer_instance
  · infer_instance

instance : Keeps promise (declaration self) := by
  have hcompanion : Keeps promise (companion self) := by dsimp only [companion]; infer_instance
  have hconstructor : Keeps promise (secondaryConstructor self) := by
    dsimp only [secondaryConstructor]; infer_instance
  refine keeps_choice fun ts => ?_
  split
  · split_ifs <;> infer_instance
  · infer_instance

theorem keeps_topLevel : Keeps promise (topLevel self) := by
  dsimp only [topLevel]
  infer_instance

/-- **Every rule keeps the promise**, if the rules that it refers to do. -/
theorem keeps_grammar [Yields Solid (self .valueArguments)] (g : Goal) :
    Keeps promise (grammar self g) := by
  cases g <;>
    dsimp only [grammar, type, typeAnnot, annot, expression, operand, primary,
      valueArguments, statement, loop, statements, classBody] <;>
    infer_instance

end Rules

/-! ## The whole tree -/

theorem solid_valueArguments (n : Nat) : Yields Solid (Reader.fix grammar n .valueArguments) := by
  cases n with
  | zero => exact inferInstanceAs (Yields Solid fail)
  | succ n =>
    have : Yields Solid (valueArguments (Reader.fix grammar n)) := by
      dsimp only [valueArguments]; infer_instance
    exact this

/-- The forest that is read of tokens is as promised. -/
theorem everyIn_read (ts : List Token) : EveryIn promise.Met (read ts) := by
  have harguments := solid_valueArguments
  have hself : ∀ g, Keeps promise (Reader.fix grammar (8 * ts.length + 8) g) :=
    Reader.keeps_fix (fun _ _ => keeps_grammar) _
  have htop : Keeps promise (topLevel (Reader.fix grammar (8 * ts.length + 8))) := keeps_topLevel
  exact everyIn_run (many (topLevel (Reader.fix grammar (8 * ts.length + 8))))
    fun _ _ => ⟨trivial, fun _ _ => trivial⟩

end Grammar

/-- **The tree of a Kotlin file is as promised.** -/
theorem everyIn_tree (text : String) : EveryIn promise.Met (tree text) :=
  Grammar.everyIn_read (tokens text)

end AdLint.Kotlin
