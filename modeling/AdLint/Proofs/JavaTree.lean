import AdLint.Java.Outline
import AdLint.Proofs.OrderlyReaders

/-!
# The tree of a Java file is placed

Every token of a Java file takes at least one character, a number because it begins with a digit or
a point. Every rule of the grammar is orderly if the rules that it refers to are, so the tree of a
file is placed, whatever its text is and wherever the rules stop to apply.

## Main results

* `Java.takes_next`: no token and no comment is empty
* `Java.Grammar.orderly_grammar`: the rules keep forests placed
* `Java.placed_tree`: the tree of every text is placed
-/

namespace AdLint.Java

open Reader

/-! ## Tokens -/

theorem numberFrom_ne_nil {digits : List Char} {isPart : Char → Bool} {letters suffixes : List Char}
    {cs : List Char} (h : digits ≠ [] ∨ fraction isPart cs ≠ []) :
    (numberFrom digits isPart letters suffixes cs).2 ≠ [] := by
  dsimp only [numberFrom]
  split <;> simp_all

/-- A number that begins with a digit or a point takes a character. -/
theorem number_ne_nil {c : Char} (h : c.isDigit = true ∨ c = '.') (cs : List Char) :
    (number (c :: cs)).2 ≠ [] := by
  cases cs with
  | nil => simp [number]
  | cons x cs =>
    rw [number]
    split
    · -- a hexadecimal number has at least the two characters that mark it
      have hhex : (numberFrom (c :: x :: cs.takeWhile isHexPart) isHexPart ['p', 'P'] []
          (cs.drop (cs.takeWhile isHexPart).length)).2 ≠ [] :=
        numberFrom_ne_nil (.inl (List.cons_ne_nil _ _))
      dsimp only
      split
      · simp [hhex]
      · exact hhex
    · split
      · simp
      · -- in a decimal one, either the digits or the fraction take the first character
        refine numberFrom_ne_nil ?_
        rcases h with h | rfl
        · simp [isDigitPart, h]
        · have hpoint : isDigitPart '.' = false := by decide
          simp [hpoint, fraction]

/-- Every token and every comment takes a character. -/
theorem takes_next (state : Unit) (c : Char) (cs : List Char) :
    (lexicon.next state c cs).1.Takes := by
  refine Lexeme.takes_ite (fun _ => trivial) fun _ => ?_
  refine Lexeme.takes_ite (fun hline => ?_) fun _ => ?_
  · rw [Bool.and_eq_true, beq_iff_eq] at hline
    exact Scan.lineComment_ne_nil (hline.1 ▸ by decide)
  refine Lexeme.takes_ite (fun _ => List.cons_ne_nil _ _) fun _ => ?_
  refine Lexeme.takes_ite (fun _ => by simp [Lexeme.Takes]) fun _ => ?_
  refine Lexeme.takes_ite (fun _ => List.cons_ne_nil _ _) fun _ => ?_
  refine Lexeme.takes_ite (fun hnumber => ?_) fun _ => ?_
  · simp only [Bool.or_eq_true, Bool.and_eq_true, beq_iff_eq] at hnumber
    exact number_ne_nil (hnumber.imp_right And.left) cs
  refine Lexeme.takes_ite (fun _ => ?_) fun _ => ?_
  · exact Lexeme.takes_ite (fun _ => List.cons_ne_nil _ _) fun _ => List.cons_ne_nil _ _
  exact Lexeme.takes_ite (fun _ => List.cons_ne_nil _ _) fun _ => Scan.mark_ne_nil (by decide) c cs

namespace Grammar

section Rules

variable {self : Rules} [∀ g, Orderly (self g)]

/-! ## Rules that several goals share -/

instance : Orderly identifier := by
  dsimp only [identifier]; infer_instance

instance {kind : Kind} {text : String} : Orderly (keyword kind text) := by
  dsimp only [keyword]; infer_instance

instance {r : Rule} [Orderly r] : Orderly (commaList r) := by
  dsimp only [commaList]; infer_instance

instance : Orderly dottedName := by
  dsimp only [dottedName]; infer_instance

instance : Orderly (typeArguments self) := by
  dsimp only [typeArguments]; infer_instance

instance : Orderly (simpleType self) := by
  dsimp only [simpleType]; infer_instance

instance : Orderly (modifiers self) := by
  dsimp only [modifiers]; infer_instance

instance : Orderly (variableName self) := by
  dsimp only [variableName, dimensions]; infer_instance

instance : Orderly (declarators self) := by
  dsimp only [declarators, declarator]; infer_instance

instance : Orderly (objectCreation self) := by
  dsimp only [objectCreation, creationHead]; infer_instance

instance : Orderly (lambda self) := by
  dsimp only [lambda]; infer_instance

instance : Orderly (switch self) := by
  dsimp only [switch, switchLabel, labelValue]; infer_instance

instance : Orderly (condition self) := by
  dsimp only [condition]; infer_instance

instance : Orderly (localVariables self) := by
  dsimp only [localVariables]; infer_instance

instance : Orderly (typeParameters self) := by
  dsimp only [typeParameters]; infer_instance

instance {word : String} : Orderly (interfacesAfter self word) := by
  dsimp only [interfacesAfter, typeList]; infer_instance

instance : Orderly (enumBody self) := by
  dsimp only [enumBody]; infer_instance

instance : Orderly (annotBody self) := by
  dsimp only [annotBody, dimensions]; infer_instance

instance : Orderly (typeDeclaration self) := by
  dsimp only [typeDeclaration, superclass, permits, typeList]; infer_instance

instance : Orderly (method self) := by
  dsimp only [method, genericModifiers, throws, dimensions]; infer_instance

/-! ## Selectors and operators -/

/-- An operator is read orderly, of however many marks it consists. -/
instance {ts : List Token} : Orderly (operator ts) := by
  have hmarks : ∀ (n : Nat) (r : Rule), Orderly r →
      Orderly ((List.replicate n (leafIf .token fun _ => true)).foldl (· ++ ·) r) := by
    intro n
    induction n with
    | zero => exact fun r hr => hr
    | succ n ih => exact fun r hr => ih (r ++ leafIf .token fun _ => true) inferInstance
  have := hmarks (operatorWidth ts) nothing inferInstance
  dsimp only [operator]
  infer_instance

instance : OrderlyStep (selector? self) where
  extends_step ts := by dsimp only [selector?, methodCall]; infer_instance

instance : OrderlyStep increment? where
  extends_step ts := by dsimp only [increment?]; infer_instance

instance : OrderlyStep (assignment? self) where
  extends_step ts := by dsimp only [assignment?]; infer_instance

instance : Chain.OrderlyLink (link? self) where
  follows ts := by dsimp only [link?]; infer_instance

instance : Orderly (primary self) := by
  have hcreation : Orderly (creation self) := by
    dsimp only [creation, creationHead]; infer_instance
  dsimp only [primary, primaryStart, literal, onType]
  infer_instance

/-! ## The rules of all goals -/

theorem orderly_keywordStatement {word : String} {rule : Rule}
    (h : keywordStatement self word = some rule) : Orderly rule := by
  have hfor : Orderly (forStatement self) := by dsimp only [forStatement]; infer_instance
  have htry : Orderly (tryStatement self) := by dsimp only [tryStatement]; infer_instance
  dsimp only [keywordStatement] at h
  split at h <;> cases h <;> infer_instance

instance {types : Rule} [Orderly types] : Orderly (statement types self) where
  placed := by
    intro lo ts rest xs hts hrun
    dsimp only [statement] at hrun
    split at hrun
    · next rule hrule =>
      have := orderly_keywordStatement hrule
      exact Orderly.placed hts hrun
    · exact Orderly.placed hts hrun

/-- **Every rule makes a placed forest**, if the rules that it refers to do. -/
theorem orderly_grammar (g : Goal) : Orderly (grammar self g) := by
  cases g <;>
    dsimp only [grammar, type, bareType, annot, elementValue, expression, binary, operand, cast,
      variableValue, arguments, parameters, pattern, block, member, genericModifiers,
      throws, classBody, dimensions] <;>
    infer_instance

theorem orderly_topLevel : Orderly (topLevel self) := by
  dsimp only [topLevel, moduleDeclaration]
  infer_instance

end Rules

/-- The forest that is read of tokens in order is placed. -/
theorem placed_read {lo : Nat} {ts : List Token} (hts : Token.InOrder lo ts) :
    ∃ hi, Tree.PlacedIn lo hi (read ts) := by
  have hself : ∀ g, Orderly (Reader.fix grammar (8 * ts.length + 8) g) :=
    Reader.orderly_fix (fun _ _ => orderly_grammar) _
  have htop : Orderly (topLevel (Reader.fix grammar (8 * ts.length + 8))) := orderly_topLevel
  exact exists_placedIn_run (many (topLevel (Reader.fix grammar (8 * ts.length + 8)))) hts

end Grammar

/-- **The tree of a Java file is placed.** -/
theorem placed_tree (text : String) : ∃ hi, Tree.PlacedIn 0 hi (tree text) :=
  Grammar.placed_read (Lexicon.inOrder_tokens takes_next text)

end AdLint.Java
