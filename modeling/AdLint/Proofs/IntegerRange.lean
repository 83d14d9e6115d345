import AdLint.Kotlin.Meaning
import AdLint.Proofs.JavaTerms
import AdLint.Proofs.Marks
import AdLint.Proofs.Occurrences

/-!
# The range of integers

The integers of expressions have 64 bits. One of them can be negated in 64 bits unless it is the
least, and the least integer has no literal: its digits write a number that does not fit. So a
literal is negated safely, and what a sign makes of it is in the same range, which is the same on
both sides of zero. Groups, casts, lists, arguments and sums keep the integers of their parts. This
makes the range an invariant of every expression that is made of a tree, however signs are nested in
it.

## Main definitions

* `Expr.Holds`: the integers that stand in an expression at any depth
* `Expr.InRange`: an expression whose integers can all be negated
* `Expr.word`: an expression whose integer is kept in 64 bits
* `Negatable`: an integer of 64 bits that can be negated in 64 bits

## Main results

* `Java.inRange_exprOf`, `Kotlin.inRange_readingOf`: a node keeps the range of its parts
* `expression_integers_negatable`: the range of integers, and that 64 bits are enough to make them
-/

namespace AdLint

/-! ## Integers in expressions -/

namespace Expr

/-- The integer stands in an expression, at any depth. -/
inductive Holds (v : Int) : Expr → Prop
  | int : Holds v (.int v)
  | item {items : List Expr} {e : Expr} (he : e ∈ items) (h : Holds v e) : Holds v (.array items)
  | operand {operands : List Expr} {e : Expr} (he : e ∈ operands) (h : Holds v e) :
      Holds v (.concat operands)
  | argument {use : Annot} {a : Argument} (ha : a ∈ use.arguments) (h : Holds v a.value) :
      Holds v (.annot use)

/-- The integers of an expression are at most as far from zero as the greatest one of 64 bits. -/
def InRange (e : Expr) : Prop := ∀ v, e.Holds v → v.natAbs ≤ Literal.maxInt64

/-- The expression with its integer kept in 64 bits. -/
def word : Expr → Expr
  | .int v => .int (Int64.ofInt v).toInt
  | e => e

variable {e : Expr} {es : List Expr} {v : Int} {use : Annot}

theorem inRange_int : (int v).InRange ↔ v.natAbs ≤ Literal.maxInt64 := by
  constructor
  · intro h
    exact h v .int
  · intro h w hw
    cases hw
    exact h

theorem inRange_array : (array es).InRange ↔ ∀ e ∈ es, e.InRange := by
  constructor
  · intro h e he v hv
    exact h v (.item he hv)
  · intro h v hv
    cases hv with
    | item he hv => exact h _ he v hv

theorem inRange_concat : (concat es).InRange ↔ ∀ e ∈ es, e.InRange := by
  constructor
  · intro h e he v hv
    exact h v (.operand he hv)
  · intro h v hv
    cases hv with
    | operand he hv => exact h _ he v hv

theorem inRange_annot : (annot use).InRange ↔ ∀ a ∈ use.arguments, a.value.InRange := by
  constructor
  · intro h a ha v hv
    exact h v (.argument ha hv)
  · intro h v hv
    cases hv with
    | argument ha hv => exact h _ ha v hv

theorem inRange_other (written : String) : (other written).InRange := by
  intro v hv
  cases hv

/-- The expression of a part that may be missing. -/
theorem inRange_getD {found : Option Expr} {e : Expr} (hfound : ∀ e ∈ found, e.InRange)
    (he : e.InRange) :
    (found.getD e).InRange := by
  cases found with
  | none => exact he
  | some e => exact hfound e rfl

theorem inRange_headD {e : Expr} (hes : ∀ e ∈ es, e.InRange) (he : e.InRange) :
    (es.headD e).InRange := by
  cases es with
  | nil => exact he
  | cons e es => exact hes e List.mem_cons_self

theorem inRange_neg (h : (int v).InRange) : (int (-v)).InRange := by
  rw [inRange_int, Int.natAbs_neg]
  exact inRange_int.mp h

theorem inRange_of_mem_items {e item : Expr} (he : e.InRange) (hitem : item ∈ e.items) :
    item.InRange := by
  cases e with
  | array items => exact inRange_array.mp he item hitem
  | _ => cases hitem

theorem inRange_of_mem_operands {e operand : Expr} (he : e.InRange)
    (hoperand : operand ∈ e.operands) : operand.InRange := by
  cases e with
  | concat operands => exact inRange_concat.mp he operand hoperand
  | _ => rwa [List.mem_singleton.mp hoperand]

theorem inRange_signed {written : String} {operator : Option String} {operand : Option Expr}
    (h : ∀ e ∈ operand, e.InRange) : (signed written operator operand).InRange := by
  unfold signed
  split
  · exact inRange_neg (h _ rfl)
  · exact h _ rfl
  · exact inRange_other written

end Expr

/-- An integer of 64 bits that can be negated in 64 bits. -/
structure Negatable (v : Int) : Prop where
  lower : -(Literal.maxInt64 : Int) ≤ v
  upper : v ≤ Literal.maxInt64
  negated : (-Int64.ofInt v).toInt = -v

section Words

variable {e : Expr} {v : Int}

theorem toInt_ofInt_of_natAbs_le (h : v.natAbs ≤ Literal.maxInt64) : (Int64.ofInt v).toInt = v := by
  have hmax : Literal.maxInt64 = 9223372036854775807 := rfl
  exact Int64.toInt_ofInt_of_le (by omega) (by omega)

/-- The range is the same on both sides of zero, so the negation of an integer in it fits too. -/
theorem negatable_of_natAbs_le (h : v.natAbs ≤ Literal.maxInt64) : Negatable v where
  lower := by omega
  upper := by omega
  negated := by
    rw [← Int64.ofInt_neg]
    exact toInt_ofInt_of_natAbs_le (by rwa [Int.natAbs_neg])

/-- An integer in the range is the same in 64 bits. -/
theorem Expr.word_eq_self (h : e.InRange) : e.word = e := by
  cases e with
  | int v => rw [word, toInt_ofInt_of_natAbs_le (inRange_int.mp h)]
  | _ => rfl

end Words

/-! ## Values made of a tree -/

namespace Tree

variable {κ α : Type} {f g : κ → Span → List (Tree κ × α) → α} {P : α → Prop}

/-- What a node keeps of its parts holds of every node. -/
theorem fold_of_parts (hf : ∀ kind span parts, (∀ part ∈ parts, P part.2) → P (f kind span parts))
    (t : Tree κ) : P (t.fold f) := by
  induction t using Tree.induct with
  | node t ih =>
    cases t with
    | node kind role span parts =>
      rw [fold, Java.foldParts_eq_map]
      refine hf kind span _ fun part hpart => ?_
      obtain ⟨u, hu, rfl⟩ := List.mem_map.mp hpart
      exact ih u hu

/-- Two ways to make values agree if they do so on parts with a property that a node keeps. -/
theorem fold_congr_of_parts
    (hf : ∀ kind span parts, (∀ part ∈ parts, P part.2) → P (f kind span parts))
    (hg : ∀ kind span parts, (∀ part ∈ parts, P part.2) → g kind span parts = f kind span parts)
    (t : Tree κ) : t.fold g = t.fold f := by
  induction t using Tree.induct with
  | node t ih =>
    cases t with
    | node kind role span parts =>
      have hparts : (parts.map fun u => (u, u.fold g)) = parts.map fun u => (u, u.fold f) :=
        List.map_congr_left fun u hu => by rw [ih u hu]
      rw [fold, fold, Java.foldParts_eq_map, Java.foldParts_eq_map, hparts]
      refine hg kind span _ fun part hpart => ?_
      obtain ⟨u, -, rfl⟩ := List.mem_map.mp hpart
      exact fold_of_parts hf u

end Tree

/-! ## Literals -/

namespace Literal

variable {v : Int}

theorem natAbs_le_of_digits? {base : Nat} {cs : List Char} (h : digits? base cs = some v) :
    v.natAbs ≤ maxInt64 := by
  rw [digits?, Option.ite_none_left_eq_some, Option.bind_eq_some_iff] at h
  obtain ⟨-, n, -, hn⟩ := h
  obtain ⟨hle, hvalue⟩ := Option.ite_none_right_eq_some.mp hn
  cases hvalue
  exact hle

/-- A literal writes no integer whose negation would not fit, in whichever base it is read. -/
theorem inRange_integer (written : String) :
    (((integer? written).map Expr.int).getD (.literal written)).InRange := by
  refine Expr.inRange_getD ?_ fun v hv => by cases hv
  intro e he
  obtain ⟨v, hv, rfl⟩ := Option.map_eq_some_iff.mp he
  rw [Expr.inRange_int]
  rw [integer?] at hv
  unfold numeral? at hv
  split at hv
  · exact natAbs_le_of_digits? hv
  · exact natAbs_le_of_digits? hv
  · split at hv <;> exact natAbs_le_of_digits? hv
  · exact natAbs_le_of_digits? hv

example : integer? "9223372036854775807" = some 9223372036854775807 ∧
    integer? "9223372036854775808" = none := by
  decide

end Literal

/-! ## Java -/

namespace Java

open AdLint.Expr

variable {s : Source} {parts : Parts}

theorem inRange_of_inRole {role : Role} (hparts : ∀ part ∈ parts, part.2.InRange) :
    ∀ e ∈ (parts.inRole? role).map (fun part => part.2), e.InRange := by
  intro e he
  obtain ⟨part, hpart, rfl⟩ := Option.map_eq_some_iff.mp he
  exact hparts part (List.mem_of_find?_eq_some hpart)

theorem inRange_of_mem_named (hparts : ∀ part ∈ parts, part.2.InRange) :
    ∀ e ∈ parts.named.exprs, e.InRange := by
  intro e he
  obtain ⟨part, hpart, rfl⟩ := List.mem_map.mp he
  exact hparts part (List.mem_of_mem_filter hpart)

theorem inRange_annotOf (span : Span) (hparts : ∀ part ∈ parts, part.2.InRange) :
    ∀ a ∈ (annotOf s span parts).arguments, a.value.InRange := by
  intro a ha
  rw [annotOf] at ha
  dsimp only at ha
  split at ha
  · next list value hlist =>
    have hvalue := hparts _ (List.mem_of_find?_eq_some hlist)
    obtain ⟨node, -, item, hitem, rfl⟩ := exists_of_mem_zipWith ha
    exact inRange_of_mem_items hvalue hitem
  · cases ha

/-- **A node keeps the range of its parts.** -/
theorem inRange_exprOf (s : Source) (kind : Kind) (span : Span) (parts : Parts)
    (hparts : ∀ part ∈ parts, part.2.InRange) : (exprOf s kind span parts).InRange := by
  cases kind with
  | integer => exact Literal.inRange_integer _
  | array | argumentList => exact inRange_array.mpr (inRange_of_mem_named hparts)
  | arrayCreation =>
    rw [exprOf]
    split
    · next hfound => exact hparts _ (List.mem_of_find?_eq_some hfound)
    · intro v hv
      cases hv
  | annot => exact inRange_annot.mpr (inRange_annotOf span hparts)
  | pair => exact inRange_getD (inRange_of_inRole hparts) (inRange_other _)
  | parenthesized => exact inRange_headD (inRange_of_mem_named hparts) (inRange_other _)
  | cast => exact inRange_getD (inRange_of_inRole hparts) (inRange_other _)
  | unary => exact inRange_signed (inRange_of_inRole hparts)
  | binary =>
    have hrole : ∀ {role : Role} {part}, parts.inRole? role = some part → part.2.InRange :=
      fun hfound => hparts _ (List.mem_of_find?_eq_some hfound)
    rw [exprOf]
    split
    · next hleft hright =>
      split
      · -- the operands of a sum on either side are operands of the whole sum
        refine inRange_concat.mpr fun operand hoperand => ?_
        rcases List.mem_append.mp hoperand with hoperand | hoperand
        · exact inRange_of_mem_operands (hrole hleft) hoperand
        · exact inRange_of_mem_operands (hrole hright) hoperand
      · exact inRange_other _
    · exact inRange_other _
  | _ =>
    intro v hv
    cases hv

end Java

/-! ## Kotlin -/

namespace Kotlin

open AdLint.Expr

variable {s : Source} {parts : Parts} {written : String} {amongArguments : Bool}

/-- The expression of a node is in the range, wherever the node stands. -/
def Reading.InRange (reading : Reading) : Prop := ∀ amongArguments, (reading amongArguments).InRange

/-- The parts of a node are in the range. -/
def Parts.InRange (parts : Parts) : Prop := ∀ part ∈ parts, Reading.InRange part.2

/-- The expression of a part that may be missing. -/
theorem Parts.InRange.getD {found : Option (Node × Reading)} {e : Expr} (hparts : parts.InRange)
    (hfound : ∀ part ∈ found, part ∈ parts) (he : e.InRange) :
    ((found.map fun part => part.2 amongArguments).getD e).InRange := by
  refine inRange_getD (fun e he => ?_) he
  obtain ⟨part, hpart, rfl⟩ := Option.map_eq_some_iff.mp he
  exact hparts part (hfound part hpart) amongArguments

theorem mem_of_head?_named {part : Node × Reading} (h : part ∈ parts.named.head?) : part ∈ parts :=
  List.mem_of_mem_filter (List.mem_of_head? h)

theorem mem_of_getLast?_named {part : Node × Reading} (h : part ∈ parts.named.getLast?) :
    part ∈ parts :=
  List.mem_of_mem_filter (List.mem_of_getLast? h)

theorem inRange_argumentsIn {node : Node} {reading : Reading} (h : (reading true).InRange) :
    ∀ a ∈ argumentsIn s node reading, a.value.InRange := by
  intro a ha
  rw [argumentsIn] at ha
  split at ha
  · obtain ⟨argument, -, item, hitem, rfl⟩ := exists_of_mem_zipWith ha
    exact inRange_of_mem_items h hitem
  · cases ha

theorem inRange_annotOf? {span : Span} {use : Annot} (hparts : parts.InRange)
    (h : annotOf? s span parts = some use) : (Expr.annot use).InRange := by
  rw [inRange_annot]
  rw [annotOf?] at h
  split at h
  · next call reading hcall =>
    obtain ⟨type, -, hsome⟩ := Option.bind_eq_some_iff.mp h
    cases hsome
    exact inRange_argumentsIn (hparts _ (List.mem_of_find?_eq_some hcall) true)
  · obtain ⟨type, -, hsome⟩ := Option.bind_eq_some_iff.mp h
    cases hsome
    intro a ha
    cases ha

theorem inRange_textOf (written : String) : (textOf written).InRange := by
  rw [textOf]
  split
  · dsimp only
    split
    · exact inRange_other written
    · refine inRange_concat.mpr fun e he v hv => ?_
      simp only [List.mem_cons, List.not_mem_nil, or_false] at he
      rcases he with rfl | rfl <;> cases hv
  · intro v hv
    cases hv

theorem inRange_callOf (span : Span) (hparts : parts.InRange) :
    (callOf s span parts amongArguments).InRange := by
  rw [callOf]
  split
  · split
    · split
      · -- an annotation holds its arguments, the other expressions of calls hold none
        rw [inRange_annot]
        dsimp only
        split
        · next hsuffix =>
            exact inRange_argumentsIn (hparts _ (List.mem_of_find?_eq_some hsuffix) true)
        · intro a ha
          cases ha
      · split <;> (intro v hv; cases hv)
    · intro v hv
      cases hv
  · exact inRange_other _

theorem inRange_signedOf (hparts : parts.InRange) :
    (signedOf s written parts amongArguments).InRange := by
  have hoperand : ∀ e ∈ parts.named.getLast?.map fun part => part.2 amongArguments, e.InRange := by
    intro e he
    obtain ⟨part, hpart, rfl⟩ := Option.map_eq_some_iff.mp he
    exact hparts part (mem_of_getLast?_named hpart) amongArguments
  exact inRange_signed hoperand

theorem inRange_sumOf (hparts : parts.InRange) :
    (sumOf s written parts amongArguments).InRange := by
  rw [sumOf]
  split
  · refine inRange_concat.mpr fun operand hoperand => ?_
    obtain ⟨part, hpart, hoperand⟩ := List.mem_flatMap.mp hoperand
    exact inRange_of_mem_operands (hparts part (List.mem_of_mem_filter hpart) amongArguments)
      hoperand
  · exact inRange_other written

/-- An expression of which at most its text is kept. -/
theorem inRange_unread (written : String) :
    (if written == "null" then Expr.null else .other written).InRange := by
  split
  · intro v hv
    cases hv
  · exact inRange_other written

theorem inRange_plainReadingOf (kind : Kind) (span : Span) (hparts : parts.InRange) :
    (plainReadingOf s kind span parts amongArguments).InRange := by
  cases kind with
  | integer => exact Literal.inRange_integer _
  | text => exact inRange_textOf _
  | collection =>
    refine inRange_array.mpr fun e he => ?_
    obtain ⟨part, hpart, rfl⟩ := List.mem_map.mp he
    exact hparts part (List.mem_of_mem_filter hpart) amongArguments
  | annot =>
    refine inRange_getD (fun e he => ?_) (inRange_other _)
    obtain ⟨use, huse, rfl⟩ := Option.map_eq_some_iff.mp he
    exact inRange_annotOf? hparts huse
  | call => exact inRange_callOf span hparts
  | parenthesized | cast => exact hparts.getD (fun _ => mem_of_head?_named) (inRange_other _)
  | signed => exact inRange_signedOf hparts
  | additive => exact inRange_sumOf hparts
  | truth | literal | name | navigation | lambda | gap | objectLiteral =>
    intro v hv
    cases hv
  | _ => exact inRange_unread _

/-- **A node keeps the range of its parts**, wherever it stands. -/
theorem inRange_readingOf (s : Source) (kind : Kind) (span : Span) (parts : Parts)
    (hparts : parts.InRange) : Reading.InRange (readingOf s kind span parts) := by
  intro amongArguments
  cases kind with
  | valueArgument =>
    refine hparts.getD (fun _ => mem_of_getLast?_named) fun v hv => ?_
    cases hv
  | valueArguments =>
    refine inRange_array.mpr fun e he => ?_
    obtain ⟨part, hpart, rfl⟩ := List.mem_map.mp he
    exact hparts part (List.mem_of_mem_filter hpart) true
  | constructorCall | callSuffix =>
    refine hparts.getD (fun _ => List.mem_of_find?_eq_some) (inRange_array.mpr fun e he => ?_)
    cases he
  | _ =>
    delta readingOf
    dsimp only
    split
    · intro v hv
      cases hv
    · exact inRange_plainReadingOf _ span hparts

end Kotlin

/-! ## The integers of expressions -/

/-- The expression of a node if every integer is kept in 64 bits as soon as it is made. -/
def Java.wordExpr (s : Source) (node : Java.Node) : Expr :=
  node.fold fun kind span parts => (Java.exprOf s kind span parts).word

/-- The expression of a node if every integer is kept in 64 bits as soon as it is made. -/
def Kotlin.wordExpr (s : Source) (node : Kotlin.Node) (amongArguments : Bool) : Expr :=
  node.fold (fun kind span parts amongArguments =>
    (Kotlin.readingOf s kind span parts amongArguments).word)
    amongArguments

/-- **The integers of expressions can be negated.** Every integer in the expression of a node, at
any depth, lies between the greatest integer of 64 bits and its negation. So an expression that is
made with integers of 64 bits is the expression of the node: no literal and no sign in it
overflows. -/
theorem expression_integers_negatable :
    (∀ s node v, (Java.expr s node).Holds v → Negatable v) ∧
      (∀ s node amongArguments v, (Kotlin.expr s node amongArguments).Holds v → Negatable v) ∧
      (∀ s node, Java.wordExpr s node = Java.expr s node) ∧
        ∀ s node amongArguments, Kotlin.wordExpr s node amongArguments =
          Kotlin.expr s node amongArguments := by
  refine ⟨?_, ?_, ?_, ?_⟩
  · intro s node v hv
    exact negatable_of_natAbs_le (Tree.fold_of_parts (Java.inRange_exprOf s) node v hv)
  · intro s node amongArguments v hv
    have hrange :=
      Tree.fold_of_parts (P := Kotlin.Reading.InRange) (Kotlin.inRange_readingOf s) node
    exact negatable_of_natAbs_le (hrange amongArguments v hv)
  · intro s node
    -- the integer that a node makes of its parts is in the range, so keeping it changes nothing
    have hword : ∀ kind span parts, (∀ part ∈ parts, part.2.InRange) →
        (Java.exprOf s kind span parts).word = Java.exprOf s kind span parts :=
      fun kind span parts hparts => Expr.word_eq_self (Java.inRange_exprOf s kind span parts hparts)
    exact Tree.fold_congr_of_parts (Java.inRange_exprOf s) hword node
  · intro s node amongArguments
    have hword : ∀ kind span (parts : Kotlin.Parts), parts.InRange →
        (fun amongArguments => (Kotlin.readingOf s kind span parts amongArguments).word) =
          Kotlin.readingOf s kind span parts := by
      intro kind span parts hparts
      funext amongArguments
      exact Expr.word_eq_self (Kotlin.inRange_readingOf s kind span parts hparts amongArguments)
    have hreading :=
      Tree.fold_congr_of_parts (P := Kotlin.Reading.InRange) (Kotlin.inRange_readingOf s)
      hword node
    exact congrFun hreading amongArguments

end AdLint
