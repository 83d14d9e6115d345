import AdLint.Java.Outline
import AdLint.Proofs.FormedReaders

/-!
# The shape of the tree of a Java file

The outline of a Java file looks for the name of a call, the name of a declared type and the body of
a method among the parts of a node. The grammar puts them there: a call has a name or a type and has
arguments, a declaration has a name, and a body is a phrase in braces, never itself a call or a
declaration. So nothing that the outline looks for is ever missing in a tree that was read.

## Main definitions

* `Java.promise`: what the grammar promises of the nodes of a tree

## Main results

* `Java.Grammar.keeps_grammar`: the rules keep the promise
* `Java.everyIn_tree`: the tree of every text is as promised
-/

namespace AdLint.Java

open Reader
open AdLint.Tree (EveryIn EndsIn Firm Solid Supplies SuppliesAll)

/-- The parts that every node of a kind has. No type is declared as a field: its node would need a
part that is declared so itself. -/
@[reducible]
def needs : Kind → List (Need Kind)
  | .invocation => [.role .name, .role .arguments]
  | .creation => [.role .type, .role .arguments]
  | .typeDeclaration .field => [.role .name, .kind (.typeDeclaration .field)]
  | .typeDeclaration _ => [.role .name]
  | .method => [.role .name]
  | .declarator => [.role .name]
  | _ => []

/-- Bodies are phrases in braces. -/
@[reducible]
def reserves : Role → Option Kind
  | .body => some .other
  | _ => none

/-- What is promised of the nodes of a Java file that start at some places. -/
@[reducible]
def promise (starts : Place → Prop) : Promise Kind where
  needs := needs
  reserves := reserves
  starts := starts
  needs_comment := rfl
  needs_token := rfl
  reserves_plain := rfl

instance : Substance (NodeKind.token : Kind) := ⟨rfl⟩
instance : Substance Kind.name := ⟨rfl⟩
instance : Substance Kind.argumentList := ⟨rfl⟩
instance : Substance Kind.other := ⟨rfl⟩

namespace Grammar

-- rules with many alternatives take more instances than the limit allows by default
set_option synthInstance.maxSize 256

section Rules

variable {starts : Place → Prop} {self : Rules} [∀ g, Keeps (promise starts) (self g)]

/-! ## Rules that several goals share -/

instance : Keeps (promise starts) identifier := by
  dsimp only [identifier]; infer_instance

instance : Yields Firm identifier := by
  dsimp only [identifier]; infer_instance

instance {kind : Kind} {text : String} [Needless (needs kind)] :
    Keeps (promise starts) (keyword kind text) := by
  dsimp only [keyword]; infer_instance

instance : Keeps (promise starts) dottedName := by
  dsimp only [dottedName]; infer_instance

instance : Keeps (promise starts) (typeArguments self) := by
  dsimp only [typeArguments, commaList]; infer_instance

instance : Keeps (promise starts) (simpleType self) := by
  dsimp only [simpleType]; infer_instance

instance : Yields Firm (simpleType self) := by
  dsimp only [simpleType]; infer_instance

instance : Keeps (promise starts) (modifiers self) := by
  dsimp only [modifiers]; infer_instance

instance : Keeps (promise starts) (declarators self) := by
  dsimp only [declarators, declarator, variableName, dimensions]; infer_instance

instance : Keeps (promise starts) (lambda self) := by
  dsimp only [lambda, commaList]; infer_instance

instance : Keeps (promise starts) (switch self) := by
  dsimp only [switch, switchLabel, labelValue]; infer_instance

instance : Keeps (promise starts) (condition self) := by
  dsimp only [condition]; infer_instance

instance : Keeps (promise starts) (localVariables self) := by
  dsimp only [localVariables]; infer_instance

instance : Keeps (promise starts) (typeParameters self) := by
  dsimp only [typeParameters, commaList]; infer_instance

instance : Keeps (promise starts) (genericModifiers self) := by
  dsimp only [genericModifiers]; infer_instance

instance {word : String} : Keeps (promise starts) (interfacesAfter self word) := by
  dsimp only [interfacesAfter, typeList]; infer_instance

/-! ## Operators -/

instance {ts : List Token} : Keeps (promise starts) (operator ts) := by
  have hmarks : ∀ (n : Nat) (r : Rule), Keeps (promise starts) r →
      Keeps (promise starts)
        ((List.replicate n (leafIf .token fun _ => true)).foldl (· ++ ·) r) := by
    intro n
    induction n with
    | zero => exact fun r hr => hr
    | succ n ih => exact fun r hr => ih (r ++ leafIf .token fun _ => true) inferInstance
  have := hmarks (operatorWidth ts) nothing inferInstance
  dsimp only [operator]
  infer_instance

instance : KeepsStep (promise starts) increment? where
  augments_step ts := by dsimp only [increment?]; infer_instance

instance : KeepsStep (promise starts) (assignment? self) where
  augments_step ts := by dsimp only [assignment?]; infer_instance

instance : Chain.KeepsLink (promise starts) (link? self) where
  leads ts := by dsimp only [link?]; infer_instance

/-! ## Calls -/

instance : Yields (Supplies (.role .type)) (objectCreation self) := by
  dsimp only [objectCreation, creationHead]; infer_instance

section Calls

variable [Yields Firm (self .arguments)]

instance : Keeps (promise starts) (objectCreation self) := by
  dsimp only [objectCreation, creationHead]; infer_instance

instance : Yields (Supplies (.role .arguments)) (objectCreation self) := by
  dsimp only [objectCreation]; infer_instance

instance : Keeps (promise starts) (methodCall self) := by
  dsimp only [methodCall]; infer_instance

instance : Yields (Supplies (.role .name)) (methodCall self) := by
  dsimp only [methodCall]; infer_instance

instance : Yields (Supplies (.role .arguments)) (methodCall self) := by
  dsimp only [methodCall]; infer_instance

instance : KeepsStep (promise starts) (selector? self) where
  augments_step ts := by dsimp only [selector?]; infer_instance

instance : Keeps (promise starts) (primary self) := by
  have hcreation : Keeps (promise starts) (creation self) := by
    dsimp only [creation, creationHead]; infer_instance
  dsimp only [primary, primaryStart, literal, onType]
  infer_instance

end Calls

/-! ## Declarations -/

section Declarations

variable [Yields (EndsIn Kind.other) (self .block)] [Yields (EndsIn Kind.other) (self .classBody)]

instance : Keeps (promise starts) (typeDeclaration self) := by
  have henum : Keeps (promise starts) (enumBody self) := by
    dsimp only [enumBody, commaList]; infer_instance
  have hannot : Keeps (promise starts) (annotBody self) := by
    dsimp only [annotBody, dimensions]; infer_instance
  have henumEnd : Yields (EndsIn Kind.other) (enumBody self) := by
    dsimp only [enumBody]; infer_instance
  have hannotEnd : Yields (EndsIn Kind.other) (annotBody self) := by
    dsimp only [annotBody]; infer_instance
  have hsuper : Keeps (promise starts) (superclass self) := by
    dsimp only [superclass]; infer_instance
  have hpermits : Keeps (promise starts) (permits self) := by
    dsimp only [permits, typeList]; infer_instance
  dsimp only [typeDeclaration]
  infer_instance

instance : Keeps (promise starts) (method self) := by
  dsimp only [method, throws, dimensions]; infer_instance

end Declarations

/-! ## The rules of all goals -/

theorem keeps_keywordStatement {word : String} {rule : Rule}
    (h : keywordStatement self word = some rule) : Keeps (promise starts) rule := by
  have hfor : Keeps (promise starts) (forStatement self) := by
    dsimp only [forStatement, variableName, dimensions, commaList]; infer_instance
  have htry : Keeps (promise starts) (tryStatement self) := by
    dsimp only [tryStatement, variableName, dimensions]; infer_instance
  dsimp only [keywordStatement] at h
  split at h <;> cases h <;> infer_instance

instance {types : Rule} [Keeps (promise starts) types] :
    Keeps (promise starts) (statement types self) where
  keeps := by
    intro ts rest xs hts hrun
    dsimp only [statement] at hrun
    split at hrun
    · next rule hrule =>
      have : Keeps (promise starts) rule := keeps_keywordStatement hrule
      exact Keeps.keeps hts hrun
    · exact Keeps.keeps hts hrun

variable [Yields (EndsIn Kind.other) (self .block)]

theorem keeps_topLevel : Keeps (promise starts) (topLevel self) := by
  dsimp only [topLevel, moduleDeclaration]
  infer_instance

variable [Yields Firm (self .arguments)] [Yields (EndsIn Kind.other) (self .classBody)]

/-- **Every rule keeps the promise**, if the rules that it refers to do. -/
theorem keeps_grammar (g : Goal) : Keeps (promise starts) (grammar self g) := by
  cases g <;>
    dsimp only [grammar, type, bareType, annot, elementValue, expression, binary, operand, cast,
      variableValue, variableName, arguments, parameters, pattern, block, member, throws, classBody,
      dimensions, commaList] <;>
    infer_instance

end Rules

/-! ## The whole tree -/

theorem firm_arguments (n : Nat) : Yields Firm (Reader.fix grammar n .arguments) := by
  cases n with
  | zero => exact inferInstanceAs (Yields Firm fail)
  | succ n =>
    have : Yields Firm (arguments (Reader.fix grammar n)) := by
      dsimp only [arguments]; infer_instance
    exact this

theorem endsIn_block (n : Nat) : Yields (EndsIn Kind.other) (Reader.fix grammar n .block) := by
  cases n with
  | zero => exact inferInstanceAs (Yields _ fail)
  | succ n =>
    have : Yields (EndsIn Kind.other) (block (Reader.fix grammar n)) := by
      dsimp only [block]; infer_instance
    exact this

theorem endsIn_classBody (n : Nat) :
    Yields (EndsIn Kind.other) (Reader.fix grammar n .classBody) := by
  cases n with
  | zero => exact inferInstanceAs (Yields _ fail)
  | succ n =>
    have : Yields (EndsIn Kind.other) (classBody (Reader.fix grammar n)) := by
      dsimp only [classBody]; infer_instance
    exact this

/-- The forest that is read of tokens at some places is as promised. -/
theorem everyIn_read {starts : Place → Prop} {ts : List Token}
    (hts : ∀ t ∈ ts, (promise starts).Allows t) : EveryIn (promise starts).Met (read ts) := by
  have harguments := firm_arguments
  have hblock := endsIn_block
  have hbody := endsIn_classBody
  have hself : ∀ g, Keeps (promise starts) (Reader.fix grammar (8 * ts.length + 8) g) :=
    Reader.keeps_fix (fun _ _ => keeps_grammar) _
  have htop : Keeps (promise starts) (topLevel (Reader.fix grammar (8 * ts.length + 8))) :=
    keeps_topLevel
  exact everyIn_run (many (topLevel (Reader.fix grammar (8 * ts.length + 8)))) hts

end Grammar

/-- **The tree of a Java file is as promised**, with its nodes where tokens are. -/
theorem everyIn_tree {starts : Place → Prop} {text : String}
    (hts : ∀ t ∈ lexicon.tokens text, (promise starts).Allows t) :
    EveryIn (promise starts).Met (tree text) :=
  Grammar.everyIn_read hts

theorem role_mem_needs (type : DeclarationKind) : .role .name ∈ needs (.typeDeclaration type) := by
  cases type <;> simp

/-- No type is declared as a field. -/
theorem kind_ne_field_of_every {starts : Place → Prop} {t : Node}
    (h : t.Every (promise starts).Met) :
    t.kind ≠ .typeDeclaration .field := by
  induction h with
  | node hhere _ ih =>
    rintro rfl
    obtain ⟨u, hu, hkind⟩ := hhere.needed (.kind (.typeDeclaration .field)) (by simp)
    exact ih u hu hkind

end AdLint.Java
