import AdLint.Java.Grammar.Declaration
import AdLint.Proofs.FormedReaders

/-!
# Reading sums of texts

A sum of texts is made of text literals, `+` and parentheses. `Sums` says which nodes write a sum,
and `SumTokens` which tokens do. A group in parentheses is one operand, and `+` takes the sum to its
left and one operand to its right.

The tokens of a sum are read as a chain: the first operand, and one link for each `+` outside of
parentheses. All links have the level of `+`, so they are joined in one pass from the left. The
reader of an operand refers to the reader of expressions only for what stands in parentheses, two
steps deeper, so the number of tokens bounds the depth.

No comment stands in a sum, but comments may stand before it. They belong to its first token, and
every phrase that begins with this token leaves them before itself. So they end up before the node
of the sum.

## Main definitions

* `TextSum`: a sum of text literals, without its parentheses
* `Sums`: the sum that a node writes
* `Tree.commentNodes`: the nodes of comments that stand before a phrase
* `SumTokens`: the tokens that write a sum
* `Grammar.EndsExpression`: tokens that do not continue an expression

## Main results

* `Grammar.readsChain_of_sumTokens`: the tokens of a sum are read as a chain that is joined to the
  sum
* `Grammar.run_expression_of_sumTokens`: the tokens of a sum are read as an expression that is the
  sum
-/

namespace AdLint

/-! ## Comments before a phrase -/

namespace Tree

variable {κ : Type} [NodeKind κ] {kind : κ} {spans : List Span} {first : Tree κ} {rest : Forest κ}

/-- The nodes of comments. -/
def commentNodes (spans : List Span) : Forest κ :=
  spans.map fun span => .node NodeKind.comment .plain span []

/-- A phrase leaves the comments at its start before itself. -/
theorem phrase_commentNodes_append (hcomment : NodeKind.isComment (NodeKind.comment : κ) = true)
    (h : first.isComment = false) :
    phrase kind (commentNodes spans ++ first :: rest) =
      commentNodes spans ++ [.node kind .plain (spanOf first rest) (first :: rest)] := by
  have hall : ∀ t ∈ (commentNodes spans : Forest κ), t.isComment = true := by
    intro t ht
    obtain ⟨span, -, rfl⟩ := List.mem_map.mp ht
    exact hcomment
  simp only [phrase, List.takeWhile_append_of_pos hall, List.dropWhile_append_of_pos hall,
    List.takeWhile_cons_of_neg (by simp [h] : ¬first.isComment = true),
    List.dropWhile_cons_of_neg (by simp [h] : ¬first.isComment = true), List.append_nil]

end Tree

/-! ## Runs of readers -/

namespace Reader

variable {κ : Type} {a b r : Reader κ} {ts us vs : List Token} {xs ys : Forest κ}

theorem run_append_of_none (ha : a.run ts = none) : (a ++ b).run ts = none := by
  show (a.run ts).bind _ = none
  rw [ha]
  rfl

theorem run_append_of_some_none (ha : a.run ts = some (xs, us)) (hb : b.run us = none) :
    (a ++ b).run ts = none := by
  show (a.run ts).bind _ = none
  rw [ha]
  show (b.run us).bind _ = none
  rw [hb]
  rfl

theorem run_append_of_some (ha : a.run ts = some (xs, us)) (hb : b.run us = some (ys, vs)) :
    (a ++ b).run ts = some (xs ++ ys, vs) := by
  show (a.run ts).bind _ = _
  rw [ha]
  show (b.run us).bind _ = _
  rw [hb]
  rfl

theorem run_orElse_of_none (ha : a.run ts = none) (hb : b.run ts = none) :
    (a <|> b).run ts = none := by
  show (a.run ts).or (b.run ts) = none
  rw [ha, hb]
  rfl

theorem run_oneOf_of_none {rs : List (Reader κ)} (hr : r.run ts = none) :
    (oneOf (r :: rs)).run ts = (oneOf rs).run ts := by
  simp only [oneOf, List.findSome?_cons, hr]

theorem run_oneOf_of_some {rs : List (Reader κ)} (hr : r.run ts = some (xs, us)) :
    (oneOf (r :: rs)).run ts = some (xs, us) := by
  simp only [oneOf, List.findSome?_cons, hr]

theorem run_maybe_of_none (hr : r.run ts = none) : (maybe r).run ts = some ([], ts) := by
  show (r.run ts).or (some ([], ts)) = _
  rw [hr]
  rfl

theorem run_many_of_none (hr : r.run ts = none) : (many r).run ts = some ([], ts) := by
  show some (repeatUpTo r ts.length ts) = _
  cases ts with
  | nil => rfl
  | cons t ts => rw [List.length_cons, repeatUpTo, hr]

/-- What was read stays as it is if no step applies. -/
theorem run_extending_of_none
    {step : List Token → Option (Reader κ × (Forest κ → Forest κ → Forest κ))}
    (hr : r.run ts = some (xs, us)) (hstep : step us = none) :
    (extending r step).run ts = some (xs, us) := by
  show (r.run ts).bind _ = _
  rw [hr]
  show some (extendUpTo step us.length xs us) = _
  cases hus : us.length with
  | zero => rfl
  | succ n => rw [extendUpTo, hstep]

theorem run_as_of_none {role : Role} (hr : r.run ts = none) : (as role r).run ts = none := by
  show (r.run ts).map _ = none
  rw [hr]
  rfl

variable [NodeKind κ] {kind : κ}

theorem run_phrase_of_none (hr : r.run ts = none) : (phrase kind r).run ts = none := by
  show (r.run ts).map _ = none
  rw [hr]
  rfl

theorem run_phrase_of_some (hr : r.run ts = some (xs, us)) :
    (phrase kind r).run ts = some (Tree.phrase kind xs, us) := by
  show (r.run ts).map _ = _
  rw [hr]
  rfl

theorem run_leafIf_of_false {condition : Token → Bool} {t : Token} (h : condition t = false) :
    (leafIf kind condition).run (t :: ts) = none := by
  show (if condition t then some (Tree.leaf kind t, ts) else none) = none
  rw [h]
  rfl

/-- A token is read as one leaf, after the comments before it. -/
theorem run_leafIf_of_true {condition : Token → Bool} {t : Token} (h : condition t = true) :
    (leafIf kind condition).run (t :: ts) =
      some (Tree.commentNodes t.comments ++ [.node kind .plain t.span []], ts) := by
  show (if condition t then some (Tree.leaf kind t, ts) else none) = _
  rw [h]
  rfl

/-- A token without comments is read as one leaf alone. -/
theorem run_leafIf_of_bare {condition : Token → Bool} {t : Token} (h : condition t = true)
    (hbare : t.comments = []) :
    (leafIf kind condition).run (t :: ts) = some ([.node kind .plain t.span []], ts) := by
  rw [run_leafIf_of_true h, hbare]
  rfl

theorem run_tokIn_of_reads {texts : List String} {t : Token}
    (h : ∀ text ∈ texts, t.reads text = false) :
    (tokIn texts : Reader κ).run (t :: ts) = none := by
  refine run_leafIf_of_false ?_
  rw [Bool.and_eq_false_imp]
  intro hkind
  rw [Bool.eq_false_iff, Ne, List.contains_iff_mem]
  intro hmem
  have hreads := h t.text hmem
  rw [Token.reads, hkind, beq_self_eq_true] at hreads
  exact absurd hreads (by decide)

end Reader

namespace Chain

variable {κ : Type} {level : Nat} {first : Forest κ} {links more : List (Link κ)}

/-- Operators of other levels are left alone. -/
theorem joinLevel_of_ne (h : ∀ link ∈ links, link.level ≠ level) :
    joinLevel level first links = { first, links } := by
  induction links generalizing first with
  | nil => rfl
  | cons link links ih =>
    obtain ⟨hlink, hlinks⟩ := List.forall_mem_cons.mp h
    rw [joinLevel, if_neg (by simpa using hlink), ih hlinks]

/-- Operators of the level are joined from the left. -/
theorem joinLevel_append (h : ∀ link ∈ links, link.level = level) :
    joinLevel level first (links ++ more) =
      joinLevel level (joinLevel level first links).first more := by
  induction links generalizing first with
  | nil => rfl
  | cons link links ih =>
    obtain ⟨hlink, hlinks⟩ := List.forall_mem_cons.mp h
    have hlevel : (link.level == level) = true := by simpa using hlink
    rw [List.cons_append, joinLevel, if_pos hlevel, joinLevel, if_pos hlevel, ih hlinks]

theorem joinAll_of_links_eq_nil : joinAll level { first } = first := by
  induction level with
  | zero => rfl
  | succ level ih => exact ih

end Chain

namespace Java

/-! ## Sums -/

/-- A sum of text literals. Parentheses show only in its shape. -/
inductive TextSum where
  /-- A literal as it is written, with its quotes. -/
  | literal (written : String)
  | plus (left right : TextSum)

/-- The literals of a sum in order. -/
def TextSum.literals : TextSum → List String
  | literal written => [written]
  | plus left right => left.literals ++ right.literals

/-- The node writes the sum. No comment stands in parentheses. -/
inductive Sums (s : Source) : Node → TextSum → Prop
  | literal {t : Node} (hkind : t.kind = .text) : Sums s t (.literal (s.slice t.span))
  | group {t inner : Node} {e : TextSum} (hkind : t.kind = .parenthesized)
      (hinner : t.namedParts = [inner]) (h : Sums s inner e) : Sums s t e
  | plus {t operator left right : Node} {l r : TextSum} (hkind : t.kind = .binary)
      (hoperator : t.part? .operator = some operator) (hplus : s.slice operator.span = "+")
      (hleft : t.part? .left = some left) (hright : t.part? .right = some right)
      (hl : Sums s left l) (hr : Sums s right r) : Sums s t (.plus l r)

namespace Sums

variable {s : Source} {t : Node} {e : TextSum}

theorem inRole (h : Sums s t e) (role : Role) : Sums s (t.inRole role) e := by
  cases t with
  | node kind _ span parts =>
    cases h with
    | literal hkind => exact (.literal hkind : Sums s (.node kind role span parts) _)
    | group hkind hinner h => exact .group hkind hinner h
    | plus hkind hoperator hplus hleft hright hl hr =>
      exact .plus hkind hoperator hplus hleft hright hl hr

/-- A node that writes a sum is neither a plain token nor a comment. -/
theorem kind_ne (h : Sums s t e) : t.kind ≠ .token ∧ t.kind ≠ .comment := by
  cases h with
  | literal hkind => simp [hkind]
  | group hkind _ _ => simp [hkind]
  | plus hkind _ _ _ _ _ _ => simp [hkind]

end Sums

/-! ## Their tokens -/

/-- A mark with these characters. -/
structure IsMark (s : Source) (written : String) (t : Token) : Prop where
  kind : t.kind = .mark
  text : t.text = written
  slice : s.slice t.span = t.text

/-- A text literal. -/
structure IsTextLiteral (s : Source) (t : Token) : Prop where
  kind : t.kind = .text
  quote : t.text.toList.head? = some '"'
  slice : s.slice t.span = t.text

/-- The tokens write the sum; the flag tells whether they are one operand. The comments are those
before the first token, and there are no others. -/
inductive SumTokens (s : Source) : Bool → List Span → TextSum → List Token → Prop
  | literal {t : Token} (h : IsTextLiteral s t) : SumTokens s true t.comments (.literal t.text) [t]
  | group {b : Bool} {e : TextSum} {opening closing : Token} {ts : List Token}
      (hopening : IsMark s "(" opening) (h : SumTokens s b [] e ts)
      (hclosing : IsMark s ")" closing)
      (hbare : closing.comments = []) :
      SumTokens s true opening.comments e (opening :: (ts ++ [closing]))
  | plus {b : Bool} {comments : List Span} {l r : TextSum} {plus : Token} {ts us : List Token}
      (hl : SumTokens s b comments l ts) (hplus : IsMark s "+" plus) (hbare : plus.comments = [])
      (hr : SumTokens s true [] r us) : SumTokens s false comments (.plus l r) (ts ++ plus :: us)

theorem IsMark.reads {s : Source} {written : String} {t : Token} (h : IsMark s written t)
    (text : String) : t.reads text = (written == text) := by
  rw [Token.reads, h.kind, h.text]
  rfl

theorem IsTextLiteral.reads {s : Source} {t : Token} (h : IsTextLiteral s t) (text : String) :
    t.reads text = false := by
  rw [Token.reads, h.kind]
  rfl

namespace Grammar

open Reader

/-- What can stand after an operand in a sum: nothing that selects from it, steps it or makes it the
parameters of a lambda expression. -/
structure EndsOperand (rest : List Token) : Prop where
  arrow : nextReads "->" rest = false
  dot : nextReads "." rest = false
  bracket : nextReads "[" rest = false
  colons : nextReads "::" rest = false
  increment : nextReads "++" rest = false
  decrement : nextReads "--" rest = false

/-- What can stand after an expression: no operator either. -/
structure EndsExpression (rest : List Token) : Prop extends EndsOperand rest where
  test : nextReads "instanceof" rest = false
  condition : nextReads "?" rest = false
  operator : levelOf? (nextOperator rest) = none
  assignment : nextOperator rest ∉ assignments

/-- A token that begins a sum: it is no word, and no mark but an opening parenthesis. -/
structure BeginsSum (t : Token) : Prop where
  kind : t.kind ≠ .word
  reads : ∀ text, text ≠ "(" → t.reads text = false
  notPrimitive : primitives.contains t.text = false

variable {s : Source} {b : Bool} {comments : List Span} {e : TextSum}
  {t opening closing plus : Token} {ts rest : List Token} {n : Nat}

theorem beginsSum_of_isTextLiteral (h : IsTextLiteral s t) : BeginsSum t where
  kind := by rw [h.kind]; decide
  reads := fun text _ => h.reads text
  notPrimitive := by
    -- no primitive type is written with a quote
    have hhead : ∀ word ∈ primitives, word.toList.head? ≠ some '"' := by decide
    rw [Bool.eq_false_iff, Ne, List.contains_iff_mem]
    intro hmem
    exact hhead t.text hmem h.quote

theorem beginsSum_of_opening (h : IsMark s "(" opening) : BeginsSum opening where
  kind := by rw [h.kind]; decide
  reads := fun text htext => by rw [h.reads, beq_eq_false_iff_ne]; exact htext.symm
  notPrimitive := by rw [h.text]; decide

theorem exists_beginsSum (h : SumTokens s b comments e ts) :
    ∃ t us, ts = t :: us ∧ BeginsSum t := by
  induction h with
  | literal h => exact ⟨_, [], rfl, beginsSum_of_isTextLiteral h⟩
  | group hopening _ _ _ _ => exact ⟨_, _, rfl, beginsSum_of_opening hopening⟩
  | plus _ _ _ _ ih _ =>
    obtain ⟨t, us, rfl, ht⟩ := ih
    exact ⟨t, _, List.cons_append, ht⟩

/-! ## What a sum is not taken for -/

theorem run_annot_of_beginsSum (n : Nat) (h : BeginsSum t) (rest : List Token) :
    (Reader.fix grammar n .annot).run (t :: rest) = none := by
  cases n with
  | zero => rfl
  | succ n =>
    refine run_phrase_of_none (run_append_of_none (run_append_of_none ?_))
    exact run_leafIf_of_false (h.reads "@" (by decide))

theorem run_tokIn_of_beginsSum {texts : List String} (h : BeginsSum t) (htexts : "(" ∉ texts)
    (rest : List Token) : (tokIn texts : Rule).run (t :: rest) = none := by
  refine run_tokIn_of_reads fun text htext => h.reads text ?_
  rintro rfl
  exact htexts htext

theorem run_identifier_of_beginsSum (h : BeginsSum t) (rest : List Token) :
    identifier.run (t :: rest) = none := by
  refine run_leafIf_of_false ?_
  simp [isIdentifier, h.kind]

theorem run_bareType_of_beginsSum (n : Nat) (h : BeginsSum t) (rest : List Token) :
    (Reader.fix grammar n .bareType).run (t :: rest) = none := by
  cases n with
  | zero => rfl
  | succ n =>
    refine run_phrase_of_none (run_append_of_none ?_)
    refine run_orElse_of_none (run_leafIf_of_false (by simp [h.kind])) ?_
    refine run_phrase_of_none (run_append_of_none (run_append_of_none ?_))
    exact run_identifier_of_beginsSum h rest

theorem run_type_of_beginsSum (n : Nat) (h : BeginsSum t) (rest : List Token) :
    (Reader.fix grammar n .type).run (t :: rest) = none := by
  cases n with
  | zero => rfl
  | succ n =>
    have hannot := run_many_of_none (run_annot_of_beginsSum n h rest)
    exact run_phrase_of_none (run_append_of_some_none hannot (run_bareType_of_beginsSum n h rest))

/-- Parentheses with a sum in them are no cast. -/
theorem run_cast_of_beginsSum (n : Nat) (hopening : IsMark s "(" opening) (h : BeginsSum t)
    (rest : List Token) : (cast (Reader.fix grammar n)).run (opening :: t :: rest) = none := by
  have hahead : (tok "(" ++ sepBy1 (Reader.fix grammar n .type) (tok "&") ++ tok ")").run
      (opening :: t :: rest) = none := by
    refine run_append_of_none ?_
    refine run_append_of_some_none (run_leafIf_of_true (hopening.reads "(")) ?_
    exact run_append_of_none (run_type_of_beginsSum n h rest)
  show (if _ then _ else none) = none
  refine if_neg ?_
  simp only [Bool.or_eq_true, Bool.and_eq_true, not_or]
  constructor
  · rintro ⟨⟨⟨-, hprimitive⟩, -⟩, -⟩
    exact Bool.false_ne_true (h.notPrimitive.symm.trans hprimitive)
  · rw [leads, hahead]
    exact Bool.false_ne_true

theorem run_onType_of_beginsSum (n : Nat) (h : BeginsSum t) (rest : List Token) :
    (onType (Reader.fix grammar n)).run (t :: rest) = none := by
  have htype := run_bareType_of_beginsSum n h rest
  refine run_orElse_of_none ?_ ?_
  · exact run_phrase_of_none (run_append_of_none (run_append_of_none htype))
  · exact run_phrase_of_none (run_append_of_none (run_append_of_none htype))

/-! ## Operands -/

theorem selector?_of_endsOperand (self : Rules) (h : EndsOperand rest) :
    selector? self rest = none := by
  simp [selector?, h.dot, h.bracket, h.colons]

theorem increment?_of_endsOperand (h : EndsOperand rest) : increment? rest = none := by
  simp [increment?, h.increment, h.decrement]

/-- An operand of a sum is read as a primary expression: no prefix stands before it. -/
theorem run_operand_of_primaryStart {self : Rules} {ts : List Token} {xs : Forest Kind}
    (h : BeginsSum t)
    (hcast : nextReads "(" (t :: ts) = true → (cast self).run (t :: ts) = none)
    (hstart : (primaryStart self).run (t :: ts) = some (xs, rest)) (hrest : EndsOperand rest) :
    (operand self).run (t :: ts) = some (xs, rest) := by
  have hprimary := run_extending_of_none hstart (selector?_of_endsOperand self hrest)
  have hextended := run_extending_of_none hprimary (increment?_of_endsOperand hrest)
  have hsigned : (as .operator (tokIn ["+", "-", "!", "~"]) : Rule).run (t :: ts) = none :=
    run_as_of_none (run_tokIn_of_beginsSum h (by decide) ts)
  have hstepped : (tokIn ["++", "--"] : Rule).run (t :: ts) = none :=
    run_tokIn_of_beginsSum h (by decide) ts
  have hguarded : (guarded (nextReads "(") (cast self)).run (t :: ts) = none := by
    show (if _ then _ else none) = none
    split
    · next hopening => exact hcast hopening
    · rfl
  rw [operand, run_oneOf_of_none (run_phrase_of_none (run_append_of_none hsigned)),
    run_oneOf_of_none (run_phrase_of_none (run_append_of_none hstepped)),
    run_oneOf_of_none hguarded]
  exact run_oneOf_of_some hextended

theorem run_literal_of_opening (hopening : IsMark s "(" opening) (rest : List Token) :
    literal.run (opening :: rest) = none := by
  have hkeyword : ∀ kind text, text ≠ "(" → (keyword kind text).run (opening :: rest) = none :=
    fun kind text htext => run_leafIf_of_false ((beginsSum_of_opening hopening).reads text htext)
  have hkind : ∀ kind, kind ≠ .mark → (opening.kind == kind) = false := by
    intro kind hne
    rw [hopening.kind, beq_eq_false_iff_ne]
    exact hne.symm
  rw [literal, run_oneOf_of_none (run_leafIf_of_false (hkind _ (by decide))),
    run_oneOf_of_none (run_leafIf_of_false (hkind _ (by decide))),
    run_oneOf_of_none (run_leafIf_of_false (by simp [hkind])),
    run_oneOf_of_none (hkeyword _ "true" (by decide)),
    run_oneOf_of_none (hkeyword _ "false" (by decide)),
    run_oneOf_of_none (hkeyword _ "null" (by decide))]
  rfl

/-- A text literal is an operand. -/
theorem run_operand_of_literal (h : IsTextLiteral s t) (hrest : EndsOperand rest) (n : Nat) :
    (Reader.fix grammar (n + 1) .operand).run (t :: rest) =
      some (Tree.commentNodes t.comments ++ [.node .text .plain t.span []], rest) := by
  refine run_operand_of_primaryStart (beginsSum_of_isTextLiteral h) ?_ ?_ hrest
  · intro hopening
    exact absurd ((h.reads "(").symm.trans hopening) (by decide)
  · refine run_oneOf_of_some ?_
    rw [literal, run_oneOf_of_none (run_leafIf_of_false (by rw [h.kind]; decide))]
    exact run_oneOf_of_some (run_leafIf_of_true (by rw [h.kind]; decide))

/-- An expression in parentheses is an operand. -/
theorem run_operand_of_group {inner : Node} (hopening : IsMark s "(" opening)
    (hclosing : IsMark s ")" closing) (hbare : closing.comments = []) (ht : BeginsSum t)
    (hinner : (Reader.fix grammar n .expression).run (t :: ts) = some ([inner], closing :: rest))
    (hrest : EndsOperand rest) :
    (Reader.fix grammar (n + 1) .operand).run (opening :: t :: ts) =
      some (Tree.commentNodes opening.comments ++
        [.node .parenthesized .plain ⟨opening.span.start, closing.span.stop⟩
          [.node .token .plain opening.span [], inner, .node .token .plain closing.span []]],
        rest) := by
  have hbegins := beginsSum_of_opening hopening
  have hcall : (maybe (typeArguments (Reader.fix grammar n)) ++ tokIn ["this", "super"]).run
      (opening :: t :: ts) = none := by
    have hangle : (tok "<" : Rule).run (opening :: t :: ts) = none :=
      run_leafIf_of_false (hbegins.reads "<" (by decide))
    have harguments : (typeArguments (Reader.fix grammar n)).run (opening :: t :: ts) = none :=
      run_phrase_of_none (run_append_of_none (run_append_of_none hangle))
    exact run_append_of_some_none (run_maybe_of_none harguments)
      (run_tokIn_of_beginsSum hbegins (by decide) _)
  have hitself :
      (keyword .other "this" <|> keyword .other "super" : Rule).run (opening :: t :: ts) = none :=
    run_orElse_of_none (run_leafIf_of_false (hbegins.reads _ (by decide)))
      (run_leafIf_of_false (hbegins.reads _ (by decide)))
  have hname := run_identifier_of_beginsSum hbegins (t :: ts)
  refine run_operand_of_primaryStart hbegins (fun _ => run_cast_of_beginsSum n hopening ht ts) ?_
    hrest
  rw [primaryStart, run_oneOf_of_none (run_literal_of_opening hopening _),
    run_oneOf_of_none (run_onType_of_beginsSum n hbegins _),
    run_oneOf_of_none (run_phrase_of_none (run_append_of_none hcall)), run_oneOf_of_none hitself,
    run_oneOf_of_none (run_phrase_of_none (run_append_of_none (run_as_of_none hname))),
    run_oneOf_of_none hname]
  refine run_oneOf_of_some ?_
  have hopened : (tok "(" : Rule).run (opening :: t :: ts) = _ :=
    run_leafIf_of_true (hopening.reads "(")
  have hclosed : (tok ")" : Rule).run (closing :: rest) = _ :=
    run_leafIf_of_bare (hclosing.reads ")") hbare
  refine (run_phrase_of_some
    (run_append_of_some (run_append_of_some hopened hinner) hclosed)).trans ?_
  rw [List.append_assoc, List.append_assoc, List.singleton_append,
    Tree.phrase_commentNodes_append rfl rfl]
  rfl

/-! ## Where operands and expressions end -/

theorem endsOperand_of_isMark {written : String} (h : IsMark s written t)
    (hwritten : written ∉ ["->", ".", "[", "::", "++", "--"]) (rest : List Token) :
    EndsOperand (t :: rest) := by
  have hreads : ∀ text ∈ ["->", ".", "[", "::", "++", "--"], t.reads text = false := by
    intro text htext
    rw [h.reads, beq_eq_false_iff_ne]
    rintro rfl
    exact hwritten htext
  exact ⟨hreads _ (by decide), hreads _ (by decide), hreads _ (by decide), hreads _ (by decide),
    hreads _ (by decide), hreads _ (by decide)⟩

theorem operatorWidth_of_isMark {written : String} (h : IsMark s written t)
    (hwritten : written ≠ ">")
    (rest : List Token) : operatorWidth (t :: rest) = 1 := by
  have hreads : t.reads ">" = false := by rw [h.reads, beq_eq_false_iff_ne]; exact hwritten
  unfold operatorWidth
  split
  · next heq =>
    cases heq
    rw [hreads, Bool.false_and]
    exact if_neg Bool.false_ne_true
  · rfl

theorem nextOperator_of_isMark {written : String} (h : IsMark s written t)
    (hwritten : written ≠ ">")
    (rest : List Token) : nextOperator (t :: rest) = written := by
  rw [nextOperator, operatorWidth_of_isMark h hwritten]
  simp [h.kind, h.text]

/-- The marks that end an expression. -/
def endMarks : List String := [")", "]", "\x7d", ",", ";", ":"]

theorem endsExpression_of_isMark {written : String} (h : IsMark s written t)
    (hwritten : written ∈ endMarks)
    (rest : List Token) : EndsExpression (t :: rest) := by
  have hends : ∀ written ∈ endMarks, written ∉ ["->", ".", "[", "::", "++", "--"] ∧ written ≠ ">" ∧
      (written == "instanceof") = false ∧ (written == "?") = false ∧ levelOf? written = none ∧
      written ∉ assignments := by decide
  obtain ⟨hoperand, hangle, htest, hcondition, hlevel, hassignment⟩ := hends written hwritten
  have hoperator := nextOperator_of_isMark h hangle rest
  exact { toEndsOperand := endsOperand_of_isMark h hoperand rest
          test := (h.reads "instanceof").trans htest
          condition := (h.reads "?").trans hcondition
          operator := hoperator ▸ hlevel
          assignment := hoperator ▸ hassignment }

/-- The parentheses in a sum are balanced. -/
theorem afterClosing_of_sumTokens (h : SumTokens s b comments e ts) (depth : Nat)
    (rest : List Token) :
    afterClosing depth (ts ++ rest) = afterClosing depth rest := by
  induction h generalizing depth rest with
  | literal h => simp [afterClosing, h.reads]
  | group hopening _ hclosing _ ih => simp [afterClosing, hopening.reads, ih, hclosing.reads]
  | plus _ hplus _ _ ihl ihr => simp [ihl, afterClosing, hplus.reads, ihr]

/-- A sum is not taken for the parameters of a lambda expression. -/
theorem nextIsLambda_of_sumTokens (h : SumTokens s b comments e ts) (hrest : EndsOperand rest) :
    nextIsLambda (ts ++ rest) = false := by
  induction h generalizing rest with
  | literal h => simp [nextIsLambda, h.reads, isIdentifier, h.kind]
  | group hopening h hclosing _ _ =>
    simp [nextIsLambda, hopening.reads, afterClosing_of_sumTokens h, afterClosing, hclosing.reads,
      hrest.arrow]
  | plus _ hplus _ _ ihl _ =>
    rw [List.append_assoc]
    exact ihl (endsOperand_of_isMark hplus (by decide) _)

/-! ## Chains -/

theorem run_operator_of_plus (hplus : IsMark s "+" plus) (hbare : plus.comments = [])
    (ts : List Token) :
    (operator (plus :: ts)).run (plus :: ts) =
      some ([.node .token .plain plus.span [.node .token .plain plus.span []]], ts) := by
  rw [operator, operatorWidth_of_isMark hplus (by decide)]
  have hleaf : (leafIf Kind.token fun _ => true).run (plus :: ts) = _ :=
    run_leafIf_of_bare rfl hbare
  have hnothing : (nothing : Rule).run (plus :: ts) = some ([], plus :: ts) := rfl
  exact run_phrase_of_some (run_append_of_some hnothing hleaf)

/-- A `+` with an operand after it is a link that joins sums. Comments before the left side stay
before the sum. -/
theorem exists_link_of_plus {right : Node} {r : TextSum} (hplus : IsMark s "+" plus)
    (hbare : plus.comments = [])
    (hright : (Reader.fix grammar n .operand).run ts = some ([right], rest)) (hr : Sums s right r) :
    ∃ link : Link Kind, link? (Reader.fix grammar n) (plus :: ts) = some (link, rest) ∧
      link.level = 9 ∧ ∀ comments left l, Sums s left l →
        ∃ node, link.join (Tree.commentNodes comments ++ [left]) link.operator link.operand =
            Tree.commentNodes comments ++ [node] ∧
          Sums s node (.plus l r) := by
  have hinstance : nextReads "instanceof" (plus :: ts) = false := hplus.reads "instanceof"
  have hlevel : levelOf? (nextOperator (plus :: ts)) = some 9 := by
    rw [nextOperator_of_isMark hplus (by decide)]
    rfl
  simp only [link?, hinstance, hlevel, Option.bind_some, Link.read,
    run_operator_of_plus hplus hbare, hright, Option.bind_eq_bind]
  refine ⟨_, rfl, rfl, ?_⟩
  intro comments left l hl
  have hcomment : (left.inRole .left).isComment = false := by
    rw [Tree.isComment_inRole, Tree.isComment]
    simpa [NodeKind.isComment] using hl.kind_ne.2
  dsimp only
  rw [Tree.labelled_concat, List.append_assoc, List.append_assoc, List.singleton_append,
    Tree.phrase_commentNodes_append rfl hcomment]
  refine ⟨_, rfl, ?_⟩
  -- each role finds the part that was given it
  obtain ⟨⟩ := left
  obtain ⟨⟩ := right
  exact .plus rfl rfl (hplus.slice.trans hplus.text) rfl rfl (hl.inRole .left) (hr.inRole .right)

/-- The tokens are read as a chain: the comments before them, the first operand, and then links of
`+` that are joined to the sum. -/
structure ReadsChain (s : Source) (n : Nat) (comments : List Span) (e : TextSum)
    (ts rest : List Token) (first node : Node) (links : List (Link Kind)) (us : List Token) :
    Prop where
  operand : (Reader.fix grammar n .operand).run (ts ++ rest) =
    some (Tree.commentNodes comments ++ [first], us)
  readLinks : ∀ m, Chain.readLinks (link? (Reader.fix grammar n)) (links.length + m) us =
    (links ++ (Chain.readLinks (link? (Reader.fix grammar n)) m rest).1,
      (Chain.readLinks (link? (Reader.fix grammar n)) m rest).2)
  length_le : links.length + rest.length ≤ us.length
  level : ∀ link ∈ links, link.level = 9
  joinLevel : Chain.joinLevel 9 (Tree.commentNodes comments ++ [first]) links =
    { first := Tree.commentNodes comments ++ [node] }
  sums : Sums s node e

theorem readLinks_of_endsExpression (self : Rules) (h : EndsExpression rest) (m : Nat) :
    Chain.readLinks (link? self) m rest = ([], rest) := by
  have hlink : link? self rest = none := by simp [link?, h.test, h.operator]
  cases m with
  | zero => rfl
  | succ m => rw [Chain.readLinks, hlink]

theorem assignment?_of_endsExpression (self : Rules) (h : EndsExpression rest) :
    assignment? self rest = none := by
  simp [assignment?, h.condition, h.assignment]

/-- Links of `+` alone are joined in one pass. -/
theorem joinAll_of_level {first joined : Forest Kind} {links : List (Link Kind)}
    (hlevel : ∀ link ∈ links, link.level = 9)
    (hjoin : Chain.joinLevel 9 first links = { first := joined }) :
    Chain.joinAll 10 { first, links } = joined := by
  have hten : Chain.joinLevel 10 first links = { first, links } := by
    refine Chain.joinLevel_of_ne fun link hlink => ?_
    rw [hlevel link hlink]
    decide
  rw [Chain.joinAll, hten, Chain.joinAll, hjoin]
  exact Chain.joinAll_of_links_eq_nil

namespace ReadsChain

variable {first node : Node} {links : List (Link Kind)} {us : List Token}

/-- A chain that nothing continues is an expression. -/
theorem run_expression (h : ReadsChain s n comments e ts rest first node links us)
    (hlambda : nextIsLambda (ts ++ rest) = false) (hrest : EndsExpression rest) :
    (Reader.fix grammar (n + 1) .expression).run (ts ++ rest) =
      some (Tree.commentNodes comments ++ [node], rest) := by
  have hlinks : Chain.readLinks (link? (Reader.fix grammar n)) us.length us = (links, rest) := by
    have hread := h.readLinks (us.length - links.length)
    rw [Nat.add_sub_of_le (by have := h.length_le; omega), readLinks_of_endsExpression _ hrest,
      List.append_nil] at hread
    exact hread
  have hbinary : (binary (Reader.fix grammar n)).run (ts ++ rest) =
      some (Tree.commentNodes comments ++ [node], rest) := by
    simp only [binary, Chain.reader, h.operand, Option.bind_eq_bind, Option.bind_some, hlinks,
      joinAll_of_level h.level h.joinLevel]
  show (if nextIsLambda (ts ++ rest) then _ else _) = _
  rw [hlambda]
  exact run_extending_of_none hbinary (assignment?_of_endsExpression _ hrest)

/-- An operand is a chain without links. -/
theorem of_operand
    (hrun : (Reader.fix grammar n .operand).run (ts ++ rest) =
      some (Tree.commentNodes comments ++ [node], rest))
    (hsums : Sums s node e) : ReadsChain s n comments e ts rest node node [] rest where
  operand := hrun
  readLinks := fun m => by rw [List.length_nil, Nat.zero_add, List.nil_append]
  length_le := by simp
  level := fun _ hlink => absurd hlink List.not_mem_nil
  joinLevel := rfl
  sums := hsums

/-- A `+` and an operand make a chain longer by one link. -/
theorem append_plus {l r : TextSum} {vs : List Token} {right : Node} (hplus : IsMark s "+" plus)
    (hbare : plus.comments = [])
    (h : ReadsChain s n comments l ts (plus :: (vs ++ rest)) first node links us)
    (hright : (Reader.fix grammar n .operand).run (vs ++ rest) = some ([right], rest))
    (hr : Sums s right r) :
    ∃ node' links',
      ReadsChain s n comments (.plus l r) (ts ++ plus :: vs) rest first node' links' us := by
  obtain ⟨link, hlink, hlevel, hjoin⟩ := exists_link_of_plus hplus hbare hright hr
  obtain ⟨node', hnode', hsums⟩ := hjoin comments node l h.sums
  have hone : ∀ m, Chain.readLinks (link? (Reader.fix grammar n)) (m + 1) (plus :: (vs ++ rest)) =
      (link :: (Chain.readLinks (link? (Reader.fix grammar n)) m rest).1,
        (Chain.readLinks (link? (Reader.fix grammar n)) m rest).2) := by
    intro m
    rw [Chain.readLinks, hlink]
  refine ⟨node', links ++ [link], ?_, ?_, ?_, ?_, ?_, hsums⟩
  · have hoperand := h.operand
    rwa [List.append_assoc, List.cons_append]
  · intro m
    rw [List.length_append, List.length_singleton, Nat.add_assoc, Nat.add_comm 1 m,
      h.readLinks, hone]
    simp
  · have hlength := h.length_le
    simp only [List.length_append, List.length_cons, List.length_nil] at hlength ⊢
    omega
  · intro x hx
    rcases List.mem_append.mp hx with hx | hx
    · exact h.level x hx
    · rw [List.mem_singleton.mp hx, hlevel]
  · rw [Chain.joinLevel_append h.level, h.joinLevel, Chain.joinLevel,
      if_pos (by simp [hlevel]), hnode']
    rfl

end ReadsChain

/-- **The tokens of a sum are read as a chain that is joined to the sum.** One operand makes a chain
without links. -/
theorem readsChain_of_sumTokens (h : SumTokens s b comments e ts) (hn : ts.length ≤ n)
    (hrest : EndsOperand rest) :
    ∃ first node links us, ReadsChain s n comments e ts rest first node links us ∧
      (b = true → first = node ∧ us = rest) := by
  induction h generalizing n rest with
  | @literal t h =>
    obtain ⟨n, rfl⟩ : ∃ k, n = k + 1 := ⟨n - 1, by simp at hn; omega⟩
    have hsums : Sums s (.node .text .plain t.span []) (.literal t.text) := by
      rw [← h.slice]
      exact .literal rfl
    exact ⟨_, _, _, _, .of_operand (run_operand_of_literal h hrest n) hsums, fun _ => ⟨rfl, rfl⟩⟩
  | @group b e opening closing ts hopening h hclosing hbare ih =>
    -- what stands in the parentheses is read two references deeper
    obtain ⟨n, rfl⟩ : ∃ k, n = k + 2 := ⟨n - 2, by simp at hn; omega⟩
    have hends := endsExpression_of_isMark hclosing (by decide) rest
    obtain ⟨first, node, links, us, hchain, -⟩ :=
      ih (n := n) (by simp at hn; omega) hends.toEndsOperand
    have hinner := hchain.run_expression (nextIsLambda_of_sumTokens h hends.toEndsOperand) hends
    obtain ⟨t, vs, rfl, ht⟩ := exists_beginsSum h
    have hrun := run_operand_of_group hopening hclosing hbare ht hinner hrest
    have hgroup : Sums s (.node .parenthesized .plain ⟨opening.span.start, closing.span.stop⟩
        [.node .token .plain opening.span [], node, .node .token .plain closing.span []]) e := by
      refine .group rfl ?_ hchain.sums
      have hnamed : node.isNamed = true := by
        simpa [Tree.isNamed, NodeKind.isToken] using hchain.sums.kind_ne.1
      have hplain : ∀ span : Span, Tree.isNamed (.node .token .plain span [] : Node) = false :=
        fun _ => rfl
      rw [Tree.namedParts, Tree.parts, List.filter_cons_of_neg (by simp [hplain]),
        List.filter_cons_of_pos hnamed, List.filter_cons_of_neg (by simp [hplain]), List.filter_nil]
    refine ⟨_, _, _, _, .of_operand ?_ hgroup, fun _ => ⟨rfl, rfl⟩⟩
    simpa using hrun
  | @plus b comments l r plus ts us hl hplus hbare hr ihl ihr =>
    rw [List.length_append, List.length_cons] at hn
    obtain ⟨first, node, links, vs, hchain, -⟩ :=
      ihl (n := n) (by omega) (endsOperand_of_isMark hplus (by decide) (us ++ rest))
    obtain ⟨right, _, _, _, hright, hone⟩ := ihr (n := n) (by omega) hrest
    obtain ⟨rfl, rfl⟩ := hone rfl
    obtain ⟨node', links', hplus'⟩ := hchain.append_plus hplus hbare hright.operand hright.sums
    exact ⟨first, node', links', vs, hplus', fun h => absurd h (by decide)⟩

/-- **The tokens of a sum are read as an expression that is the sum**, after the comments before
it. -/
theorem run_expression_of_sumTokens (h : SumTokens s b comments e ts) (hn : ts.length < n)
    (hrest : EndsExpression rest) :
    ∃ node, (Reader.fix grammar n .expression).run (ts ++ rest) =
        some (Tree.commentNodes comments ++ [node], rest) ∧
      Sums s node e := by
  obtain ⟨n, rfl⟩ : ∃ k, n = k + 1 := ⟨n - 1, by omega⟩
  obtain ⟨first, node, links, us, hchain, -⟩ :=
    readsChain_of_sumTokens (n := n) h (by omega) hrest.toEndsOperand
  have hlambda := nextIsLambda_of_sumTokens h hrest.toEndsOperand
  exact ⟨node, hchain.run_expression hlambda hrest, hchain.sums⟩

end Grammar

end Java

end AdLint
