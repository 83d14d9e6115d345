import AdLint.Kotlin.Outline
import AdLint.Proofs.OrderlyReaders

/-!
# The tree of a Kotlin file is placed

Every token of a Kotlin file takes at least one character, inside of a text with templates as well
as outside. Every rule of the grammar is orderly if the rules that it refers to are, so the tree of
a file is placed, whatever its text is and wherever the rules stop to apply.

## Main results

* `Kotlin.takes_next`: no token and no comment is empty
* `Kotlin.Grammar.orderly_grammar`: the rules keep forests placed
* `Kotlin.placed_tree`: the tree of every text is placed
-/

namespace AdLint.Kotlin

open Reader

/-! ## Tokens -/

/-- A number that begins with a digit, or with a point before a digit, takes a character. -/
theorem number_ne_nil {c : Char} {cs : List Char}
    (h : c.isDigit = true ∨ c = '.' ∧ (cs.head?.map Char.isDigit).getD false = true) :
    (number (c :: cs)).2 ≠ [] := by
  have hstart : (c :: cs).takeWhile isDigitPart ≠ [] ∨
      fraction ((c :: cs).drop ((c :: cs).takeWhile isDigitPart).length) ≠ [] := by
    rcases h with h | ⟨rfl, h⟩
    · simp [isDigitPart, h]
    · have hpoint : isDigitPart '.' = false := by decide
      -- the point begins a fraction, as a digit follows it
      cases cs with
      | nil => simp at h
      | cons d cs => simp_all [fraction]
  dsimp only [number]
  split
  · next hempty =>
    simp only [Bool.and_eq_true, List.isEmpty_iff] at hempty
    have hwhole := hstart.resolve_right (not_not.mpr hempty.1.1)
    exact List.append_ne_nil_of_left_ne_nil hwhole _
  · simp only [ne_eq, List.append_eq_nil_iff, not_and]
    rintro ⟨⟨hwhole, hpoint⟩, -⟩ -
    exact absurd hpoint (hstart.resolve_left (not_not.mpr hwhole))

theorem basedNumber?_ne_nil {cs taken : List Char} (h : basedNumber? cs = some taken) :
    taken ≠ [] := by
  unfold basedNumber? at h
  split at h
  · split at h
    · cases h
      exact List.cons_ne_nil _ _
    · cases h
  · cases h

theorem takes_code (c : Char) (cs : List Char) : (code c cs).Takes := by
  refine Lexeme.takes_ite (fun _ => trivial) fun _ => ?_
  refine Lexeme.takes_ite (fun hline => ?_) fun _ => ?_
  · rw [Bool.and_eq_true, beq_iff_eq] at hline
    exact Scan.lineComment_ne_nil (hline.1 ▸ by decide)
  refine Lexeme.takes_ite (fun _ => List.cons_ne_nil _ _) fun _ => ?_
  refine Lexeme.takes_ite (fun hscript => ?_) fun _ => ?_
  · rw [Bool.and_eq_true, beq_iff_eq] at hscript
    exact Scan.lineComment_ne_nil (hscript.1 ▸ by decide)
  refine Lexeme.takes_ite (fun _ => List.cons_ne_nil _ _) fun _ => ?_
  refine Lexeme.takes_ite (fun _ => ?_) fun _ => ?_
  · refine Lexeme.takes_ite (fun _ => List.cons_ne_nil _ _) fun _ => ?_
    exact Lexeme.takes_ite (fun _ => List.cons_ne_nil _ _) fun _ => List.cons_ne_nil _ _
  refine Lexeme.takes_ite (fun hnumber => ?_) fun _ => ?_
  · simp only [Bool.or_eq_true, Bool.and_eq_true, beq_iff_eq] at hnumber
    split
    · next taken htaken => exact basedNumber?_ne_nil htaken
    · exact number_ne_nil hnumber
  exact Lexeme.takes_ite (fun _ => List.cons_ne_nil _ _) fun _ => Scan.mark_ne_nil (by decide) c cs

theorem takes_literal (raw : Bool) (opened : List Open) (c : Char) (cs : List Char) :
    (literal raw opened c cs).1.Takes := by
  dsimp only [literal]
  split_ifs <;> simp_all [Lexeme.Takes]

/-- Every token and every comment takes a character. -/
theorem takes_next (opened : List Open) (c : Char) (cs : List Char) :
    (lexicon.next opened c cs).1.Takes := by
  dsimp only [lexicon]
  split
  · exact takes_literal false _ c cs
  · exact takes_literal true _ c cs
  · split
    · split <;> exact List.cons_ne_nil _ _
    · split
      · split_ifs
        · exact List.cons_ne_nil _ _
        · exact List.cons_ne_nil _ _
        · exact List.cons_ne_nil _ _
        · exact takes_code c cs
      · exact takes_code c cs

theorem inOrder_markEnds {lo : Nat} {ts : List Token} (h : Token.InOrder lo ts) :
    Token.InOrder lo (markEnds ts) := by
  induction ts generalizing lo with
  | nil => trivial
  | cons t ts ih =>
    obtain ⟨ht, hts⟩ := h
    exact ⟨ht, ih hts⟩

namespace Grammar

section Rules

variable {self : Rules} [∀ g, Orderly (self g)]

/-! ## Rules that several goals share -/

instance : Orderly identifier := by
  dsimp only [identifier]; infer_instance

instance : Orderly typeIdentifier := by
  dsimp only [typeIdentifier]; infer_instance

instance {kind : Kind} {text : String} : Orderly (keyword kind text) := by
  dsimp only [keyword]; infer_instance

instance {r : Rule} [Orderly r] : Orderly (commaList r) := by
  dsimp only [commaList]; infer_instance

instance {layout : Layout} {r : Rule} [Orderly r] : Orderly (onward layout r) := by
  dsimp only [onward]; infer_instance

instance : Orderly (typeArguments self) := by
  dsimp only [typeArguments]; infer_instance

instance : Orderly (userType self) := by
  dsimp only [userType]; infer_instance

instance : Orderly (functionTypeParameters self) := by
  dsimp only [functionTypeParameters]; infer_instance

instance : Orderly questionMarks := by
  dsimp only [questionMarks]; infer_instance

instance : Orderly (typeParameters self) := by
  dsimp only [typeParameters]; infer_instance

instance : Orderly (typeConstraints self) := by
  dsimp only [typeConstraints]; infer_instance

instance : Orderly (annotCall self) := by
  dsimp only [annotCall]; infer_instance

instance : Orderly (modifiers self) := by
  dsimp only [modifiers]; infer_instance

instance : Orderly (oneVariable self) := by
  dsimp only [oneVariable]; infer_instance

instance : Orderly (variableList self) := by
  dsimp only [variableList]; infer_instance

instance : Orderly (block self) := by
  dsimp only [block]; infer_instance

instance {layout : Layout} : Orderly (branchBody self layout) := by
  dsimp only [branchBody]; infer_instance

instance : Orderly (lambda self) := by
  dsimp only [lambda]; infer_instance

instance : Orderly (parameters self) := by
  dsimp only [parameters, parameter]; infer_instance

instance : Orderly (functionBody self) := by
  dsimp only [functionBody]; infer_instance

instance {layout : Layout} : Orderly (delegations self layout) := by
  dsimp only [delegations, delegation]; infer_instance

/-! ## Suffixes and operators -/

instance : OrderlyStep (typeSuffix? self) where
  extends_step ts := by dsimp only [typeSuffix?]; infer_instance

instance {layout : Layout} : OrderlyStep (suffix? self layout) where
  extends_step ts := by dsimp only [suffix?, trailingLambda]; infer_instance

instance {layout : Layout} : OrderlyStep (assignment? self layout) where
  extends_step ts := by dsimp only [assignment?]; infer_instance

instance {layout : Layout} : Chain.OrderlyLink (link? self layout) where
  follows ts := by dsimp only [link?, linkOf?]; infer_instance

/-! ## The rules of all goals -/

instance {layout : Layout} : Orderly (primaryStart self layout) := by
  have hobject : Orderly (objectLiteral self) := by dsimp only [objectLiteral]; infer_instance
  have hfunction : Orderly (anonymousFunction self) := by
    dsimp only [anonymousFunction]; infer_instance
  have hif : Orderly (ifExpression self layout) := by dsimp only [ifExpression]; infer_instance
  have hwhen : Orderly (whenExpression self) := by dsimp only [whenExpression]; infer_instance
  have htry : Orderly (tryExpression self) := by dsimp only [tryExpression]; infer_instance
  have hjump : Orderly (jump self layout) := by dsimp only [jump]; infer_instance
  have htext : Orderly (text self) := by dsimp only [text]; infer_instance
  dsimp only [primaryStart, callableReference, literal, collection, selfReference]
  infer_instance

instance : Orderly (receiver self) := by
  dsimp only [receiver]; infer_instance

instance : Orderly (accessor self) := by
  dsimp only [accessor, parameter]; infer_instance

instance : Orderly (objectRest self) := by
  dsimp only [objectRest]; infer_instance

instance : Orderly (classDeclaration self) := by
  have hconstructor : Orderly (primaryConstructor self) := by
    dsimp only [primaryConstructor, classParameter]; infer_instance
  have henum : Orderly (enumBody self) := by dsimp only [enumBody]; infer_instance
  dsimp only [classDeclaration]
  infer_instance

instance : Orderly (localDeclaration self) := by
  have hobject : Orderly (objectDeclaration self) := by
    dsimp only [objectDeclaration]; infer_instance
  have hfunction : Orderly (function self) := by dsimp only [function]; infer_instance
  have hproperty : Orderly (property self) := by dsimp only [property]; infer_instance
  have halias : Orderly (typeAlias self) := by dsimp only [typeAlias]; infer_instance
  refine orderly_choice fun ts => ?_
  split
  · split_ifs <;> infer_instance
  · infer_instance

instance : Orderly (declaration self) := by
  have hcompanion : Orderly (companion self) := by dsimp only [companion]; infer_instance
  have hconstructor : Orderly (secondaryConstructor self) := by
    dsimp only [secondaryConstructor]; infer_instance
  refine orderly_choice fun ts => ?_
  split
  · split_ifs <;> infer_instance
  · infer_instance

/-- **Every rule makes a placed forest**, if the rules that it refers to do. -/
theorem orderly_grammar (g : Goal) : Orderly (grammar self g) := by
  cases g <;>
    dsimp only [grammar, type, typeAnnot, annot, expression, operand, primary,
      valueArguments, statement, loop, statements, classBody] <;>
    infer_instance

theorem orderly_topLevel : Orderly (topLevel self) := by
  dsimp only [topLevel]
  infer_instance

end Rules

/-- The forest that is read of tokens in order is placed. -/
theorem placed_read {lo : Nat} {ts : List Token} (hts : Token.InOrder lo ts) :
    ∃ hi, Tree.PlacedIn lo hi (read ts) := by
  have hself : ∀ g, Orderly (Reader.fix grammar (8 * ts.length + 8) g) :=
    Reader.orderly_fix (fun _ _ => orderly_grammar) _
  have htop : Orderly (topLevel (Reader.fix grammar (8 * ts.length + 8))) := orderly_topLevel
  exact exists_placedIn_run (many (topLevel (Reader.fix grammar (8 * ts.length + 8)))) hts

end Grammar

/-- **The tree of a Kotlin file is placed.** -/
theorem placed_tree (text : String) : ∃ hi, Tree.PlacedIn 0 hi (tree text) :=
  Grammar.placed_read (inOrder_markEnds (Lexicon.inOrder_tokens takes_next text))

end AdLint.Kotlin
