import AdLint.Proofs.Evaluation
import AdLint.Proofs.JavaTerms
import AdLint.Proofs.JavaTree
import AdLint.Proofs.Places
import AdLint.Proofs.TextSumReading

/-!
# The values of sums of texts

A sum of texts is written with its literals, parentheses and blanks as `WrittenSum`. Its characters
are cut into the tokens of the sum wherever they stand in a file, so they are read as a node that
writes the sum. The expression of this node is one concatenation of the literals in order: a group
has the expression of what stands in it, and `+` takes the operands of both sides together. So
however deep the parentheses are, a literal stands inside one concatenation only, and the bound on
the depth of expressions never applies.

## Main definitions

* `TextLiteral`: a literal between quotes, or a block between three quotes
* `WrittenSum`: a sum as it is written
* `Cuts`: the tokens that characters in a file are cut into

## Main results

* `cutsToSum`: a sum is cut into tokens that write it
* `expr_of_sums`: the expression of a sum is a flat concatenation
* `sum_read_as_flat_concatenation`: a sum in a file is read as a flat concatenation, whose value is
  the texts of its literals one after the other
-/

namespace AdLint

/-- As many lexemes as there are characters are enough. -/
theorem Lexicon.scan_eq_of_length_le {σ : Type} {l : Lexicon σ}
    (hl : ∀ state c cs, (l.next state c cs).1.Takes) {n m : Nat} {state : σ}
    {place : Place} {gap : Gap}
    {cs : List Char} (hn : cs.length ≤ n) (hm : cs.length ≤ m) :
    l.scan n state place gap cs = l.scan m state place gap cs := by
  induction n generalizing m state place gap cs with
  | zero =>
    obtain rfl := List.length_eq_zero_iff.mp (Nat.le_zero.mp hn)
    cases m <;> rfl
  | succ n ih =>
    cases cs with
    | nil => cases m <;> rfl
    | cons c cs =>
      obtain ⟨m, rfl⟩ : ∃ k, m = k + 1 := ⟨m - 1, by rw [List.length_cons] at hm; omega⟩
      rw [List.length_cons] at hn hm
      have htakes := hl state c cs
      -- whatever stands in front, fewer characters are left
      have hdrop : ∀ taken : List Char, taken ≠ [] →
          ((c :: cs).drop taken.length).length ≤ n ∧ ((c :: cs).drop taken.length).length ≤ m := by
        intro taken htaken
        have := List.length_pos_iff.mpr htaken
        rw [List.length_drop, List.length_cons]
        omega
      rw [scan, scan]
      split
      · exact ih (by omega) (by omega)
      · next taken _ hnext =>
        rw [hnext] at htakes
        exact ih (hdrop taken htakes).1 (hdrop taken htakes).2
      · next kind taken _ hnext =>
        rw [hnext] at htakes
        rw [ih (hdrop taken htakes).1 (hdrop taken htakes).2]

namespace Java

/-! ## Literals and sums as they are written -/

/-- What can stand between the quotes of a text literal. -/
inductive QuotedBody : List Char → Prop
  | nil : QuotedBody []
  | plain {c : Char} {cs : List Char} (hquote : c ≠ '"') (hslash : c ≠ '\\') (h : QuotedBody cs) :
      QuotedBody (c :: cs)
  | escape (c : Char) {cs : List Char} (h : QuotedBody cs) : QuotedBody ('\\' :: c :: cs)

/-- What can stand between three quotes and three quotes: one or two quotes in a row also, if
another character follows them. -/
inductive BlockBody : List Char → Prop
  | nil : BlockBody []
  | plain {c : Char} {cs : List Char} (hquote : c ≠ '"') (hslash : c ≠ '\\') (h : BlockBody cs) :
      BlockBody (c :: cs)
  | escape (c : Char) {cs : List Char} (h : BlockBody cs) : BlockBody ('\\' :: c :: cs)
  | oneQuote {c : Char} {cs : List Char} (hquote : c ≠ '"') (h : BlockBody (c :: cs)) :
      BlockBody ('"' :: c :: cs)
  | twoQuotes {c : Char} {cs : List Char} (hquote : c ≠ '"') (h : BlockBody (c :: cs)) :
      BlockBody ('"' :: '"' :: c :: cs)

/-- A text literal, by what stands between its quotes. -/
inductive TextLiteral where
  | quoted (body : List Char) (h : QuotedBody body)
  | block (body : List Char) (h : BlockBody body)

namespace TextLiteral

/-- The characters of the literal. -/
def written : TextLiteral → List Char
  | quoted body _ => '"' :: (body ++ ['"'])
  | block body _ => '"' :: '"' :: '"' :: (body ++ ['"', '"', '"'])

/-- The text that the literal stands for. -/
def value : TextLiteral → String
  | quoted body _ => String.ofList (Literal.unescape body)
  | block body _ => String.ofList (Literal.unescape body)

end TextLiteral

/-- Blank characters. -/
abbrev Blanks := { cs : List Char // ∀ c ∈ cs, Scan.separates c = true }

/-- A sum of text literals as it is written, with parentheses and blanks and without comments; the
flag tells whether it is one operand. -/
inductive WrittenSum : Bool → Type where
  | literal (l : TextLiteral) : WrittenSum true
  | group {b : Bool} (opened : Blanks) (inner : WrittenSum b) (closed : Blanks) : WrittenSum true
  | plus {b : Bool} (left : WrittenSum b) (ahead behind : Blanks) (right : WrittenSum true) :
      WrittenSum false

namespace WrittenSum

/-- The characters of the sum. -/
def chars {b : Bool} : WrittenSum b → List Char
  | literal l => l.written
  | group opened inner closed => '(' :: ((opened.1 ++ inner.chars) ++ (closed.1 ++ [')']))
  | plus left ahead behind right => left.chars ++ ((ahead.1 ++ ['+']) ++ (behind.1 ++ right.chars))

/-- The literals of the sum in order. -/
def literals {b : Bool} : WrittenSum b → List TextLiteral
  | literal l => [l]
  | group _ inner _ => inner.literals
  | plus left _ _ right => left.literals ++ right.literals

/-- The number of `+` in the sum. -/
def pluses {b : Bool} : WrittenSum b → Nat
  | literal _ => 0
  | group _ inner _ => inner.pluses
  | plus left _ _ right => left.pluses + 1 + right.pluses

/-- The sum without its parentheses and blanks. -/
def sum {b : Bool} : WrittenSum b → TextSum
  | literal l => .literal (String.ofList l.written)
  | group _ inner _ => inner.sum
  | plus left _ _ right => .plus left.sum right.sum

end WrittenSum

/-! ## How a sum is cut into tokens -/

/-- The tokens of what stands in a file after `before`, where a gap is open. -/
def tokensFrom (before : List Char) (gap : Gap) (cs : List Char) : List Token :=
  lexicon.scan cs.length () (Place.start.advanceAll before) gap cs

/-- Wherever these characters stand between `before` and `after`, they are cut into the tokens, from
one gap to the other. -/
def Cuts (before cs after : List Char) (gap : Gap) (ts : List Token) (gap' : Gap) : Prop :=
  ∃ k ≤ cs.length, ∀ m,
    lexicon.scan (k + m) () (Place.start.advanceAll before) gap (cs ++ after) =
      ts ++ lexicon.scan m () (Place.start.advanceAll (before ++ cs)) gap' after

theorem Cuts.append {before cs ds after : List Char} {gap gap' gap'' : Gap} {ts us : List Token}
    (h : Cuts before cs (ds ++ after) gap ts gap')
    (h' : Cuts (before ++ cs) ds after gap' us gap'') :
    Cuts before (cs ++ ds) after gap (ts ++ us) gap'' := by
  obtain ⟨k, hk, hscan⟩ := h
  obtain ⟨k', hk', hscan'⟩ := h'
  refine ⟨k + k', by rw [List.length_append]; omega, ?_⟩
  intro m
  rw [List.append_assoc, Nat.add_assoc, hscan, hscan', List.append_assoc, List.append_assoc]

theorem Cuts.tokensFrom_eq {before cs after : List Char} {gap gap' : Gap} {ts : List Token}
    (h : Cuts before cs after gap ts gap') :
    tokensFrom before gap (cs ++ after) = ts ++ tokensFrom (before ++ cs) gap' after := by
  obtain ⟨k, hk, hscan⟩ := h
  have hlength : (cs ++ after).length = k + (cs.length - k + after.length) := by
    rw [List.length_append]
    omega
  rw [tokensFrom, hlength, hscan, tokensFrom]
  exact congrArg (ts ++ ·)
    (Lexicon.scan_eq_of_length_le takes_next (Nat.le_add_left _ _) (Nat.le_refl _))

/-- Blanks are cut into no tokens, and no comments. -/
theorem exists_cuts_blanks (blanks : Blanks) (before after : List Char) (gap : Gap) :
    ∃ gap', Cuts before blanks.1 after gap [] gap' ∧ gap'.comments = gap.comments := by
  obtain ⟨cs, hcs⟩ := blanks
  induction cs generalizing before gap with
  | nil => exact ⟨gap, ⟨0, Nat.le_refl _, by simp⟩, rfl⟩
  | cons c cs ih =>
    obtain ⟨hc, hcs⟩ := List.forall_mem_cons.mp hcs
    have hone : Cuts before [c] (cs ++ after) gap [] (gap.blank c) := by
      refine ⟨1, Nat.le_refl _, ?_⟩
      intro m
      have hnext : lexicon.next () c (cs ++ after) = (.blank, ()) := congrArg (·, ()) (if_pos hc)
      rw [Nat.add_comm, List.singleton_append, Lexicon.scan, hnext, Place.advanceAll_append]
      rfl
    obtain ⟨gap', hcuts, hgap'⟩ := ih (before ++ [c]) (gap.blank c) hcs
    exact ⟨gap', hone.append hcuts, hgap'⟩

/-- A token is cut off with its characters. -/
theorem cuts_of_next {before cs ds after : List Char} {c : Char} {kind : TokenKind} (gap : Gap)
    (hcs : cs = c :: ds) (hnext : lexicon.next () c (ds ++ after) = (.token kind cs, ())) :
    Cuts before cs after gap [Token.make kind cs (Place.start.advanceAll before) gap] {} := by
  subst hcs
  refine ⟨1, Nat.succ_le_succ (Nat.zero_le _), ?_⟩
  intro m
  rw [Nat.add_comm, List.cons_append, Lexicon.scan, hnext, Place.advanceAll_append]
  simp

theorem next_opening (cs : List Char) : lexicon.next () '(' cs = (.token .mark ['('], ()) := rfl

theorem next_closing (cs : List Char) : lexicon.next () ')' cs = (.token .mark [')'], ()) := rfl

/-- No longer mark begins with `+`, unless another `+` or `=` follows. -/
theorem mark_plus {cs : List Char} (hplus : cs.head? ≠ some '+') (hequals : cs.head? ≠ some '=') :
    Scan.mark marks ('+' :: cs) = ['+'] := by
  cases cs with
  | nil => rfl
  | cons c cs =>
    have hplus : c ≠ '+' := fun h => hplus (congrArg some h)
    have hequals : c ≠ '=' := fun h => hequals (congrArg some h)
    simp [Scan.mark, marks, Text.afterStart?, hplus.symm, hequals.symm]

theorem next_plus {cs : List Char} (hplus : cs.head? ≠ some '+') (hequals : cs.head? ≠ some '=') :
    lexicon.next () '+' cs = (.token .mark ['+'], ()) := by
  have hnext : lexicon.next () '+' cs = (.token .mark (Scan.mark marks ('+' :: cs)), ()) := rfl
  rw [hnext, mark_plus hplus hequals]

theorem quoted_of_quotedBody {body : List Char} (h : QuotedBody body) (after : List Char) :
    Scan.quoted '"' (body ++ '"' :: after) = body ++ ['"'] := by
  induction h with
  | nil => rw [List.nil_append, Scan.quoted] <;> simp
  | plain hquote hslash _ ih =>
    rw [List.cons_append, Scan.quoted, ih]
    · simp [hquote]
    · intro c cs heq
      exact absurd heq hslash
  | escape c _ ih => rw [List.cons_append, List.cons_append, Scan.quoted, ih]; rfl

theorem tripleQuoted_plain {c : Char} {cs : List Char} (hquote : c ≠ '"') (hslash : c ≠ '\\') :
    Scan.tripleQuoted (c :: cs) = c :: Scan.tripleQuoted cs := by
  rw [Scan.tripleQuoted]
  · intro cs' heq
    exact absurd heq hquote
  · intro c' cs' heq
    exact absurd heq hslash

theorem tripleQuoted_of_blockBody {body : List Char} (h : BlockBody body) (after : List Char) :
    Scan.tripleQuoted (body ++ '"' :: '"' :: '"' :: after) = body ++ ['"', '"', '"'] := by
  induction h with
  | nil => rfl
  | plain hquote hslash _ ih => rw [List.cons_append, tripleQuoted_plain hquote hslash, ih]; rfl
  | escape c _ ih => rw [List.cons_append, List.cons_append, Scan.tripleQuoted, ih]; rfl
  | oneQuote hquote _ ih =>
    rw [List.cons_append, Scan.tripleQuoted, ih]
    · rfl
    all_goals simp [hquote]
  | twoQuotes hquote _ ih =>
    rw [List.cons_append, Scan.tripleQuoted, List.cons_append, Scan.tripleQuoted, ih]
    · rfl
    all_goals simp [hquote]

theorem next_quote (cs : List Char) :
    lexicon.next () '"' cs =
      (if (Text.afterStart? ['"', '"'] cs).isSome then
        .token .text ('"' :: '"' :: '"' :: Scan.tripleQuoted (cs.drop 2))
      else .token .text ('"' :: Scan.quoted '"' cs), ()) := rfl

/-- Two quotes are not taken for the beginning of three. -/
theorem afterStart?_of_quotedBody {body after : List Char} (h : QuotedBody body)
    (hafter : after.head? ≠ some '"') :
    Text.afterStart? ['"', '"'] (body ++ '"' :: after) = none := by
  cases h with
  | nil =>
    cases after with
    | nil => rfl
    | cons c after =>
      have hc : '"' ≠ c := fun h => hafter (congrArg some h.symm)
      simp [Text.afterStart?, hc]
  | plain hquote _ _ => simp [Text.afterStart?, hquote.symm]
  | escape c _ => simp [Text.afterStart?]

theorem cuts_literal (l : TextLiteral) {before after : List Char} (gap : Gap)
    (hafter : after.head? ≠ some '"') :
    Cuts before l.written after gap
      [Token.make .text l.written (Place.start.advanceAll before) gap] {} := by
  cases l with
  | quoted body h =>
    refine cuts_of_next gap rfl ?_
    rw [List.append_assoc, List.singleton_append, next_quote, afterStart?_of_quotedBody h hafter,
      quoted_of_quotedBody h]
    rfl
  | block body h =>
    refine cuts_of_next gap rfl ?_
    rw [List.cons_append, List.cons_append, List.append_assoc, next_quote]
    show (Lexeme.token .text ('"' :: '"' :: '"' ::
      Scan.tripleQuoted (body ++ '"' :: '"' :: '"' :: after)), ()) = _
    rw [tripleQuoted_of_blockBody h]
    rfl

variable {s : Source} {before cs after : List Char} {gap : Gap}

theorem slice_make (kind : TokenKind) (htext : s.text = String.ofList (before ++ (cs ++ after))) :
    s.slice (Token.make kind cs (Place.start.advanceAll before) gap).span = String.ofList cs := by
  rw [← Source.slice_eq htext, Place.advanceAll_append]
  rfl

theorem isMark_make {written : String} (hcs : String.ofList cs = written)
    (htext : s.text = String.ofList (before ++ (cs ++ after))) :
    IsMark s written (Token.make .mark cs (Place.start.advanceAll before) gap) :=
  ⟨rfl, hcs, slice_make .mark htext⟩

theorem isTextLiteral_make (l : TextLiteral)
    (htext : s.text = String.ofList (before ++ (l.written ++ after))) :
    IsTextLiteral s (Token.make .text l.written (Place.start.advanceAll before) gap) := by
  refine ⟨rfl, ?_, slice_make .text htext⟩
  rw [Token.make, String.toList_ofList]
  cases l <;> rfl

/-- A sum begins with a quote or an opening parenthesis. -/
theorem WrittenSum.head?_chars {b : Bool} (e : WrittenSum b) (more : List Char) :
    (e.chars ++ more).head? = some '"' ∨ (e.chars ++ more).head? = some '(' := by
  induction e generalizing more with
  | literal l => left; cases l <;> rfl
  | group _ _ _ _ => right; rfl
  | plus left _ _ _ ih _ =>
    rw [chars, List.append_assoc]
    exact ih _

/-- What follows blanks follows them directly, or a blank does. -/
theorem head?_blanks (blanks : Blanks) {c : Char} (hc : Scan.separates c = false)
    (hcs : cs.head? ≠ some c) : (blanks.1 ++ cs).head? ≠ some c := by
  obtain ⟨_ | ⟨d, ds⟩, hblanks⟩ := blanks
  · exact hcs
  · intro heq
    obtain rfl : d = c := Option.some.inj heq
    exact absurd ((hblanks d List.mem_cons_self).symm.trans hc) (by decide)

/-- A mark is cut off with the blanks before it, and it has the comments of the gap. -/
theorem exists_cuts_mark {c : Char} (blanks : Blanks) (gap : Gap)
    (htext : s.text = String.ofList (before ++ ((blanks.1 ++ [c]) ++ after)))
    (hnext : lexicon.next () c after = (.token .mark [c], ())) :
    ∃ t, Cuts before (blanks.1 ++ [c]) after gap [t] {} ∧ IsMark s (String.ofList [c]) t ∧
      t.comments = gap.comments := by
  obtain ⟨gap', hblanks, hgap'⟩ := exists_cuts_blanks blanks before ([c] ++ after) gap
  refine ⟨_, hblanks.append (cuts_of_next gap' rfl hnext), ?_, hgap'⟩
  have htext : s.text = String.ofList ((before ++ blanks.1) ++ ([c] ++ after)) := by
    rw [htext, List.append_assoc, List.append_assoc]
  exact isMark_make rfl htext

/-- The sum is cut into tokens that write it, wherever it stands in the file and whatever comments
stand before it. -/
def CutsToSum (s : Source) {b : Bool} (e : WrittenSum b) : Prop :=
  ∀ (before after : List Char) (gap : Gap), s.text = String.ofList (before ++ (e.chars ++ after)) →
    after.head? ≠ some '"' →
      ∃ ts, Cuts before e.chars after gap ts {} ∧ SumTokens s b gap.comments e.sum ts

theorem cutsToSum_literal (l : TextLiteral) : CutsToSum s (.literal l) := by
  intro before after gap htext hafter
  exact ⟨_, cuts_literal l gap hafter, .literal (isTextLiteral_make l htext)⟩

namespace CutsToSum

variable {b : Bool} {e : WrittenSum b}

/-- Blanks before the sum do not count. -/
theorem after_blanks (h : CutsToSum s e) (blanks : Blanks)
    (htext : s.text = String.ofList (before ++ ((blanks.1 ++ e.chars) ++ after)))
    (hafter : after.head? ≠ some '"') :
    ∃ ts, Cuts before (blanks.1 ++ e.chars) after {} ts {} ∧ SumTokens s b [] e.sum ts := by
  obtain ⟨gap, hblanks, hgap⟩ := exists_cuts_blanks blanks before (e.chars ++ after) {}
  have htext : s.text = String.ofList ((before ++ blanks.1) ++ (e.chars ++ after)) := by
    rw [htext, List.append_assoc, List.append_assoc]
  obtain ⟨ts, hcuts, htokens⟩ := h _ _ gap htext hafter
  rw [hgap] at htokens
  exact ⟨ts, hblanks.append hcuts, htokens⟩

theorem group (h : CutsToSum s e) (opened closed : Blanks) :
    CutsToSum s (.group opened e closed) := by
  intro before after gap htext hafter
  have hnoBlanks : ∀ c ∈ ([] : List Char), Scan.separates c = true := List.forall_mem_nil _
  obtain ⟨opening, hopening, hopeningMark, hcomments⟩ :=
    exists_cuts_mark ⟨[], hnoBlanks⟩ gap htext (next_opening _)
  have hinnerText : s.text = String.ofList
      ((before ++ ['(']) ++ ((opened.1 ++ e.chars) ++ ((closed.1 ++ [')']) ++ after))) := by
    simpa [WrittenSum.chars] using htext
  have hend : ((closed.1 ++ [')']) ++ after).head? ≠ some '"' := by
    rw [List.append_assoc]
    exact head?_blanks closed (by decide) (by simp)
  obtain ⟨ts, hinner, htokens⟩ := h.after_blanks opened hinnerText hend
  have hclosingText : s.text = String.ofList
      ((before ++ ['('] ++ (opened.1 ++ e.chars)) ++ ((closed.1 ++ [')']) ++ after)) := by
    simpa [WrittenSum.chars] using htext
  obtain ⟨closing, hclosing, hclosingMark, hbare⟩ :=
    exists_cuts_mark closed {} hclosingText (next_closing _)
  refine ⟨_, hopening.append (hinner.append hclosing), ?_⟩
  rw [← hcomments]
  exact .group hopeningMark htokens hclosingMark hbare

theorem plus {right : WrittenSum true} (h : CutsToSum s e) (hright : CutsToSum s right)
    (ahead behind : Blanks) : CutsToSum s (.plus e ahead behind right) := by
  intro before after gap htext hafter
  have hleftText : s.text = String.ofList
      (before ++ (e.chars ++ (((ahead.1 ++ ['+']) ++ (behind.1 ++ right.chars)) ++ after))) := by
    simpa [WrittenSum.chars] using htext
  have hend : (((ahead.1 ++ ['+']) ++ (behind.1 ++ right.chars)) ++ after).head? ≠ some '"' := by
    rw [List.append_assoc, List.append_assoc]
    exact head?_blanks ahead (by decide) (by simp)
  obtain ⟨ts, hleft, hl⟩ := h _ _ gap hleftText hend
  -- neither a blank nor what begins a sum makes the `+` longer
  have hhead : ∀ c, Scan.separates c = false → c ≠ '"' → c ≠ '(' →
      ((behind.1 ++ right.chars) ++ after).head? ≠ some c := by
    intro c hc hquote hopening
    rw [List.append_assoc]
    refine head?_blanks behind hc ?_
    rcases right.head?_chars after with h | h <;> simp [h, hquote.symm, hopening.symm]
  have hnext := next_plus (hhead '+' (by decide) (by decide) (by decide))
    (hhead '=' (by decide) (by decide) (by decide))
  have hplusText : s.text = String.ofList ((before ++ e.chars) ++
      ((ahead.1 ++ ['+']) ++ ((behind.1 ++ right.chars) ++ after))) := by
    simpa [WrittenSum.chars] using htext
  obtain ⟨plus, hplus, hmark, hbare⟩ := exists_cuts_mark ahead {} hplusText hnext
  have hrightText : s.text = String.ofList
      ((before ++ e.chars ++ (ahead.1 ++ ['+'])) ++ ((behind.1 ++ right.chars) ++ after)) := by
    simpa [WrittenSum.chars] using htext
  obtain ⟨us, hus, hr⟩ := hright.after_blanks behind hrightText hafter
  exact ⟨_, hleft.append (hplus.append hus), .plus hl hmark hbare hr⟩

end CutsToSum

/-- **A sum is cut into tokens that write it.** -/
theorem cutsToSum {b : Bool} (e : WrittenSum b) : CutsToSum s e := by
  induction e with
  | literal l => exact cutsToSum_literal l
  | group opened _ closed ih => exact ih.group opened closed
  | plus _ ahead behind _ ihl ihr => exact ihl.plus ihr ahead behind

/-! ## The expression of a sum -/

/-- The expression of a sum: the literals one after the other, or the only one. -/
def TextSum.flat : TextSum → Expr
  | literal written => .text (Literal.unquote written)
  | plus left right =>
    .concat ((plus left right).literals.map fun written => .text (Literal.unquote written))

theorem TextSum.operands_flat (e : TextSum) :
    e.flat.operands = e.literals.map fun written => .text (Literal.unquote written) := by
  cases e <;> rfl

/-- **The expression of a sum is flat**, whatever parentheses stand in it. -/
theorem expr_of_sums {t : Node} {e : TextSum} (h : Sums s t e) : expr s t = e.flat := by
  induction h with
  | literal hkind => exact expr_of_text hkind
  | group hkind hinner _ ih =>
    rw [← ih, expr_eq, hkind, exprOf, named_exprs_map, hinner]
    rfl
  | plus hkind hoperator hplus hleft hright _ _ ihl ihr =>
    rw [expr_of_plus hkind hoperator hplus hleft hright, ihl, ihr, TextSum.operands_flat,
      TextSum.operands_flat, ← List.map_append]
    rfl

theorem unquote_written (l : TextLiteral) :
    Literal.unquote (String.ofList l.written) = l.value := by
  cases l with
  | quoted body h =>
    have hhead : body.head? ≠ some '"' := by
      cases h with
      | nil => simp
      | plain hquote _ _ => simpa using hquote
      | escape c _ => simp
    rw [Literal.unquote, String.toList_ofList, TextLiteral.written,
      Literal.inner_between_quotes hhead]
    rfl
  | block body h =>
    have hthree :
        Literal.between? ['"', '"', '"'] ('"' :: '"' :: '"' :: (body ++ ['"', '"', '"'])) =
        some body := by
      simp [Literal.between?, Text.afterStart?, Text.beforeEnd?]
    rw [Literal.unquote, String.toList_ofList, TextLiteral.written, Literal.inner, hthree]
    rfl

namespace WrittenSum

variable {b : Bool}

theorem literals_sum (e : WrittenSum b) :
    e.sum.literals = e.literals.map fun l => String.ofList l.written := by
  induction e with
  | literal l => rfl
  | group _ _ _ ih => exact ih
  | plus left _ _ right ihl ihr => rw [sum, TextSum.literals, ihl, ihr, literals, List.map_append]

/-- A sum with a `+` is a concatenation, in parentheses also. -/
theorem flat_sum {e : WrittenSum b} (hplus : 0 < e.pluses) :
    e.sum.flat = .concat (e.literals.map fun l => .text l.value) := by
  have hsum : ∃ l r, e.sum = .plus l r := by
    induction e with
    | literal l => exact absurd hplus (by simp [pluses])
    | group _ _ _ ih => exact ih hplus
    | plus left _ _ right _ _ => exact ⟨left.sum, right.sum, rfl⟩
  have hliterals : e.sum.literals.map (fun written => Expr.text (Literal.unquote written)) =
      e.literals.map fun l => .text l.value := by
    rw [literals_sum, List.map_map]
    exact List.map_congr_left fun l _ => congrArg Expr.text (unquote_written l)
  obtain ⟨l, r, hsum⟩ := hsum
  rw [hsum] at hliterals ⊢
  exact congrArg Expr.concat hliterals

end WrittenSum

/-- The value of a concatenation of texts is the texts one after the other. -/
theorem evaluate?_concat_texts (p : Project) (scope : Option Declaration) (texts : List String) :
    p.evaluate? scope (.concat (texts.map Expr.text)) = some (.text (String.join texts)) := by
  refine Project.evaluateWithin?_concat.mpr ⟨texts.map Constant.text, ?_, ?_⟩
  · rw [List.forall₂_map_left_iff, List.forall₂_map_right_iff]
    exact List.forall₂_same.mpr fun text _ => rfl
  · rw [Project.joined, List.map_map]
    exact congrArg (fun shown => Constant.text (String.join shown)) (List.map_id texts)

/-! ## Sums in files -/

/-- **A sum of texts is read as one flat concatenation of its literals, and its value is their texts
one after the other**, wherever it stands in a file, however long it is and however deep its
parentheses are. No comment stands in it, and what stands after it does not continue it. The
comments right before it are read before its node. -/
theorem sum_read_as_flat_concatenation {b : Bool} (e : WrittenSum b)
    (hplus : 0 < e.pluses) (gap : Gap)
    (htext : s.text = String.ofList (before ++ (e.chars ++ after)))
    (hafter : after.head? ≠ some '"')
    (hends : Grammar.EndsExpression (tokensFrom (before ++ e.chars) {} after)) :
    ∃ ts, tokensFrom before gap (e.chars ++ after) = ts ++ tokensFrom (before ++ e.chars) {} after ∧
      ∀ depth > ts.length, ∃ node,
        (Reader.fix Grammar.grammar depth .expression).run
          (tokensFrom before gap (e.chars ++ after)) =
          some (Tree.commentNodes gap.comments ++ [node], tokensFrom (before ++ e.chars) {} after) ∧
        expr s node = .concat (e.literals.map fun l => .text l.value) ∧
        ∀ (p : Project) (scope : Option Declaration),
          p.evaluate? scope (expr s node) =
            some (.text (String.join (e.literals.map TextLiteral.value))) := by
  obtain ⟨ts, hcuts, htokens⟩ := cutsToSum e before after gap htext hafter
  refine ⟨ts, hcuts.tokensFrom_eq, ?_⟩
  intro depth hdepth
  obtain ⟨node, hrun, hsums⟩ := Grammar.run_expression_of_sumTokens htokens hdepth hends
  have hexpr : expr s node = .concat (e.literals.map fun l => .text l.value) :=
    (expr_of_sums hsums).trans (WrittenSum.flat_sum hplus)
  refine ⟨node, hcuts.tokensFrom_eq ▸ hrun, hexpr, ?_⟩
  intro p scope
  have hvalue := evaluate?_concat_texts p scope (e.literals.map TextLiteral.value)
  rw [List.map_map] at hvalue
  exact hexpr ▸ hvalue

/-- A sum whose parentheses are `n` deep: a block in the innermost ones, and a line feed added to
each. -/
def tower : Nat → WrittenSum true
  | 0 => .literal (.block ['a'] (.plain (by decide) (by decide) .nil))
  | n + 1 =>
    let lineFeed : WrittenSum true := .literal (.quoted ['\\', 'n'] (.escape 'n' .nil))
    .group ⟨[' '], List.forall_mem_singleton.mpr rfl⟩
      (.plus (tower n) ⟨[], List.forall_mem_nil _⟩ ⟨['\n'],
        List.forall_mem_singleton.mpr rfl⟩ lineFeed)
      ⟨[], List.forall_mem_nil _⟩

/-- What stands before the sum in a file: a field, up to a comment. -/
def towerStart : List Char := "String s = /* deep */ ".toList

/-- The gap before the sum, with the comment in it. -/
def towerGap : Gap :=
  (({} : Gap).comment ⟨Place.start.advanceAll "String s = ".toList, 21⟩).blank ' '

/-- A file with a sum in parentheses that are deeper than expressions are looked at. -/
def towerSource : Source :=
  { path := ⟨"Tower.java"⟩
    text := String.ofList (towerStart ++ ((tower 9).chars ++ [';'])) }

theorem sum_read_as_flat_concatenation_tower :
    Project.maxDepth < (tower 9).pluses ∧ towerGap.comments.length = 1 ∧
      ∃ ts, tokensFrom towerStart towerGap ((tower 9).chars ++ [';']) =
          ts ++ tokensFrom (towerStart ++ (tower 9).chars) {} [';'] ∧
        ∀ depth > ts.length, ∃ node,
          (Reader.fix Grammar.grammar depth .expression).run
              (tokensFrom towerStart towerGap ((tower 9).chars ++ [';'])) =
            some (Tree.commentNodes towerGap.comments ++ [node],
              tokensFrom (towerStart ++ (tower 9).chars) {} [';']) ∧
          expr towerSource node = .concat (.text "a" :: List.replicate 9 (.text "\n")) ∧
          ∀ (p : Project) (scope : Option Declaration),
            p.evaluate? scope (expr towerSource node) =
              some (.text "a\n\n\n\n\n\n\n\n\n") := by
  have htext : towerSource.text = String.ofList (towerStart ++ ((tower 9).chars ++ [';'])) := rfl
  have hsemicolon : ∃ t, tokensFrom (towerStart ++ (tower 9).chars) {} [';'] = [t] ∧
      IsMark towerSource ";" t := by
    have hlast : towerSource.text =
        String.ofList ((towerStart ++ (tower 9).chars) ++ ([';'] ++ [])) := by
      rw [htext, List.append_assoc, List.append_nil]
    exact ⟨_, rfl, isMark_make rfl hlast⟩
  obtain ⟨t, hrest, hmark⟩ := hsemicolon
  have hends : Grammar.EndsExpression (tokensFrom (towerStart ++ (tower 9).chars) {} [';']) :=
    hrest ▸ Grammar.endsExpression_of_isMark hmark (by decide) []
  obtain ⟨ts, hts, hread⟩ := sum_read_as_flat_concatenation (tower 9) (by decide) towerGap
    htext (by decide) hends
  have hliterals : (tower 9).literals.map TextLiteral.value = "a" :: List.replicate 9 "\n" := by
    decide +kernel
  have hjoin : String.join ("a" :: List.replicate 9 "\n") = "a\n\n\n\n\n\n\n\n\n" := by
    decide +kernel
  have hoperands : (tower 9).literals.map (fun l => Expr.text l.value) =
      ("a" :: List.replicate 9 "\n").map Expr.text := by
    rw [← hliterals, List.map_map]
    rfl
  rw [hliterals, hjoin, hoperands] at hread
  exact ⟨by decide, rfl, ts, hts, hread⟩

end Java

end AdLint
