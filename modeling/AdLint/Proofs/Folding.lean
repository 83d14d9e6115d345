import AdLint.Java.Outline
import AdLint.Proofs.Evaluation
import AdLint.Proofs.JavaTerms

/-!
# Values of Java terms

The language adds two integers, with 32 bits, and joins the texts of two operands if one of them is
no integer. The evaluation of an expression does not know the operands of a `+` apart: it joins the
texts of all of them, whatever their types, through parentheses and references. So it is right
exactly where the language adds no integers, and where all literals are read as what they stand for.

## Main definitions

* `Project.HasValue`: the value that the language gives to a term
* `Project.Answers`: a value that is known for a term, compared with the value of the term

## Main results

* `Project.evaluateWithin?_operands`: the text of a sum is made of the texts of both sides
* `Project.answers_of_hasValue`: what is known of a term, by induction on how the language gets its
  value
* `Project.known_value_iff_no_deviation`: when a known value is the value of the term
-/

namespace AdLint.Project

variable {p : Project} {written : Declaration → Option Java.Term} {scope : Option Declaration}
  {v w : Constant} {k : Nat}

/-! ## The values that the language gives -/

/-- The terms are those that fields of the project are initialized with. -/
def WrittenAs (p : Project) (written : Declaration → Option Java.Term) : Prop :=
  ∀ f ∈ p.declarations, ∀ e, written f = some e →
    ∃ s t, Java.Writes s t e ∧ f.initializer = some (Java.expr s t)

/-- The value of a term, with the number of deviations on the way to it: of additions of integers,
of integer literals that do not have 31 bits, and of escapes that are not resolved. Which field a
name denotes is taken from `findField?`, which looks names up for the program too. The relation
gives values to terms and does not say again how names are looked up. -/
inductive HasValue (p : Project) (written : Declaration → Option Java.Term) :
    Option Declaration → Java.Term → Constant → Nat → Prop
  | int {scope : Option Declaration} {n : Nat} :
      HasValue p written scope (.int n) (.int (wrap32 n)) (if n < 2 ^ 31 then 0 else 1)
  | text {scope : Option Declaration} {cs ys : List Char} {k : Nat} (h : Java.Escaped cs ys k) :
      HasValue p written scope (.text cs) (.text (String.ofList ys)) k
  /-- A name has the value of the field that `findField?` finds for it. -/
  | reference {scope : Option Declaration} {path : String} {f : Declaration} {e : Java.Term}
      {v : Constant} {k : Nat} (hf : p.findField? scope path = some f) (he : written f = some e)
      (h : HasValue p written (some (p.initializerScope f)) e v k) :
      HasValue p written scope (.reference path) v k
  | group {scope : Option Declaration} {e : Java.Term} {v : Constant} {k : Nat}
      (h : HasValue p written scope e v k) : HasValue p written scope (.group e) v k
  | add {scope : Option Declaration} {l r : Java.Term} {a b : Int} {k m : Nat}
      (hl : HasValue p written scope l (.int a) k) (hr : HasValue p written scope r (.int b) m) :
      HasValue p written scope (.plus l r) (.int (wrap32 (a + b))) (k + m + 1)
  | join {scope : Option Declaration} {l r : Java.Term} {a b : Constant} {k m : Nat}
      (hl : HasValue p written scope l a k) (hr : HasValue p written scope r b m)
      (htext : a.asInt? = none ∨ b.asInt? = none) :
      HasValue p written scope (.plus l r) (.text (a.shown ++ b.shown)) (k + m)

/-! ## The text of a sum -/

/-- The operands that an expression adds have its text. -/
theorem exists_of_operands {n : Nat} {a : Expr} {values : List Constant}
    (h : List.Forall₂ (fun e w => p.evaluateWithin? n scope e = some w) a.operands values) :
    ∃ w, p.evaluateWithin? (n + 1) scope a = some w ∧
      w.shown = String.join (values.map Constant.shown) := by
  unfold Expr.operands at h
  split at h
  · exact ⟨joined values, evaluateWithin?_concat.mpr ⟨values, h, rfl⟩, rfl⟩
  · obtain ⟨w, rest, hw, hrest, rfl⟩ := List.forall₂_cons_left_iff.mp h
    obtain rfl := List.forall₂_nil_left_iff.mp hrest
    exact ⟨w, evaluateWithin?_mono (Nat.le_succ n) hw, by simp [String.join]⟩

/-- **The text of a sum is made of the texts of both sides.** -/
theorem evaluateWithin?_operands {n : Nat} {a b : Expr}
    (h : p.evaluateWithin? n scope (.concat (a.operands ++ b.operands)) = some v) :
    ∃ x y, p.evaluateWithin? n scope a = some x ∧ p.evaluateWithin? n scope b = some y ∧
      v = .text (x.shown ++ y.shown) := by
  cases n with
  | zero => cases h
  | succ n =>
    obtain ⟨values, hvalues, rfl⟩ := evaluateWithin?_concat.mp h
    have hleft := List.forall₂_take a.operands.length hvalues
    have hright := List.forall₂_drop a.operands.length hvalues
    rw [List.take_left] at hleft
    rw [List.drop_left] at hright
    obtain ⟨x, hx, hxtext⟩ := exists_of_operands hleft
    obtain ⟨y, hy, hytext⟩ := exists_of_operands hright
    refine ⟨x, y, hx, hy, ?_⟩
    rw [hxtext, hytext, ← String.join_append, ← List.map_append, List.take_append_drop]
    rfl

/-! ## What is known of a term -/

/-- A known value `v` of a term that has the value `w`, with the number of deviations. For an
integer it is the number of a single literal, or the digits of several ones. -/
inductive Answers : Constant → Constant → Nat → Prop
  | int {v : Constant} {n k : Nat} (h : Summed v.shown.toList n k)
      (hv : v = .int n ∨ (∃ x, v = .text x) ∧ 0 < k) : Answers v (.int (wrap32 n)) k
  | text {x y : String} {k : Nat} (h : Deviates x.toList y.toList k) : Answers (.text x) (.text y) k

namespace Answers

theorem deviates (h : Answers v w k) : Deviates v.shown.toList w.shown.toList k := by
  cases h with
  | int h _ =>
    rw [Constant.shown]
    exact h.deviates
  | text h => exact h

/-- The known value is the right one if and only if nothing deviates. -/
theorem eq_iff (h : Answers v w k) : v = w ↔ k = 0 := by
  constructor
  · rintro rfl
    exact h.deviates.eq_iff.mp rfl
  · rintro rfl
    cases h with
    | int h hv =>
      rw [wrap32_eq_self h.lt_of_zero]
      rcases hv with hv | ⟨-, hpos⟩
      · exact hv
      · exact absurd hpos (Nat.lt_irrefl 0)
    | text h => rw [String.toList_injective (h.eq_iff.mpr rfl)]

/-- A known integer is right up to the reduction to 32 bits. -/
theorem eq_wrap32 {a : Int} (h : Answers (.int a) w k) : w = .int (wrap32 a) := by
  cases h with
  | int _ hv =>
    rcases hv with hv | ⟨⟨x, hx⟩, -⟩
    · cases hv
      rfl
    · cases hx

/-- Two integers are added by the language, and their texts are joined by the evaluation. -/
theorem add {x y : Constant} {a b : Int} {m : Nat} (hx : Answers x (.int a) k)
    (hy : Answers y (.int b) m) :
    Answers (.text (x.shown ++ y.shown)) (.int (wrap32 (a + b))) (k + m + 1) := by
  cases hx with
  | @int _ i _ hx _ =>
    cases hy with
    | @int _ j _ hy _ =>
      have hsum : wrap32 (wrap32 i + wrap32 j) = wrap32 ((i + j : Nat) : Int) := by
        rw [wrap32_add, Int.natCast_add]
      rw [hsum]
      refine .int ?_ (.inr ⟨⟨_, rfl⟩, Nat.succ_pos _⟩)
      rw [Constant.shown, String.toList_append]
      exact .plus hx hy

theorem join {x y a b : Constant} {m : Nat} (hx : Answers x a k) (hy : Answers y b m) :
    Answers (.text (x.shown ++ y.shown)) (.text (a.shown ++ b.shown)) (k + m) := by
  refine .text ?_
  rw [String.toList_append, String.toList_append]
  exact hx.deviates.append hy.deviates

end Answers

/-- **What is known of a term answers for its value**, with as many deviations as the language makes
on the way to it. -/
theorem answers_of_hasValue (hwritten : p.WrittenAs written) {e : Java.Term}
    (h : p.HasValue written scope e w k) {s : Source} {t : Java.Node}
    (ht : Java.Writes s t e) {n : Nat}
    (hv : p.evaluateWithin? n scope (Java.expr s t) = some v) : Answers v w k := by
  induction h generalizing s t n v with
  | int =>
    cases ht with
    | int hkind hliteral =>
      rw [Java.expr_of_integer hkind hliteral] at hv
      obtain rfl := eq_of_evaluateWithin?_toExpr (c := .int _) hv
      refine .int ?_ (.inl rfl)
      rw [Constant.shown, toList_toString_int, if_pos (Int.natCast_nonneg _), Int.natAbs_natCast]
      exact .literal hliteral.lt
  | text hescaped =>
    cases ht with
    | text hkind hquoted =>
      rw [Java.expr_of_text hkind, Java.unquote_of_escaped hquoted hescaped] at hv
      obtain rfl := eq_of_evaluateWithin?_toExpr (c := .text _) hv
      refine .text ?_
      rw [String.toList_ofList, String.toList_ofList]
      exact Java.deviates_unescape hescaped
  | reference hf he _ ih =>
    cases ht with
    | reference hkind =>
      rw [Java.expr_of_name hkind] at hv
      cases n with
      | zero => cases hv
      | succ n =>
        obtain ⟨f, init, hf', hinit, hv⟩ := evaluateWithin?_reference.mp hv
        obtain rfl := Option.some.inj (hf.symm.trans hf')
        have hmem := mem_declarations_iff.mpr (kind_of_findField? hf).2
        obtain ⟨s', t', ht', hinit'⟩ := hwritten _ hmem _ he
        obtain rfl := Option.some.inj (hinit.symm.trans hinit')
        exact ih ht' hv
  | group _ ih =>
    cases ht with
    | group hkind hinner hwrites =>
      rcases Java.expr_of_group (s := s) hkind hinner with hexpr | ⟨other, hexpr⟩
      · rw [hexpr] at hv
        exact ih hwrites hv
      · rw [hexpr] at hv
        cases n <;> cases hv
  | add _ _ ihl ihr =>
    cases ht with
    | plus hkind hoperator hplus hleft hright hl hr =>
      rw [Java.expr_of_plus hkind hoperator hplus hleft hright] at hv
      obtain ⟨x, y, hx, hy, rfl⟩ := evaluateWithin?_operands hv
      exact (ihl hl hx).add (ihr hr hy)
  | join _ _ _ ihl ihr =>
    cases ht with
    | plus hkind hoperator hplus hleft hright hl hr =>
      rw [Java.expr_of_plus hkind hoperator hplus hleft hright] at hv
      obtain ⟨x, y, hx, hy, rfl⟩ := evaluateWithin?_operands hv
      exact (ihl hl hx).join (ihr hr hy)

/-- **The known value of a term is its value if and only if nothing deviates**: no integers are
added on the way to it, no integer literal exceeds 31 bits, and all escapes are resolved. A known
integer comes from a single literal, so it is right up to the reduction to 32 bits. -/
theorem known_value_iff_no_deviation (hwritten : p.WrittenAs written) {s : Source} {t : Java.Node}
    {e : Java.Term} (ht : Java.Writes s t e) (hv : p.evaluate? scope (Java.expr s t) = some v)
    (hw : p.HasValue written scope e w k) :
    (v = w ↔ k = 0) ∧ ∀ a, v = .int a → w = .int (wrap32 a) := by
  have hanswers := answers_of_hasValue hwritten hw ht hv
  refine ⟨hanswers.eq_iff, ?_⟩
  rintro a rfl
  exact hanswers.eq_wrap32

/-! ## Examples of both -/

/-- A small integer literal has the value that it writes. -/
theorem hasValue_int {n : Nat} (hn : n < 2 ^ 31) :
    p.HasValue written scope (.int n) (.int n) 0 := by
  have hvalue : p.HasValue written scope (.int n) (.int (wrap32 n)) (if n < 2 ^ 31 then 0 else 1) :=
    .int
  rwa [wrap32_eq_self hn, if_pos hn] at hvalue

theorem hasValue_plus {m n : Nat} (h : m + n < 2 ^ 31) :
    p.HasValue written scope (.plus (.int m) (.int n)) (.int (m + n : Nat)) 1 := by
  have hm : p.HasValue written scope (.int m) (.int m) 0 := hasValue_int (by omega)
  have hn : p.HasValue written scope (.int n) (.int n) 0 := hasValue_int (by omega)
  have hsum := HasValue.add hm hn
  rwa [← Int.natCast_add, wrap32_eq_self h] at hsum

/-- A leaf of a tree, on a stretch of the first line. -/
def leafAt (kind : Java.Kind) (role : Role) (start stop : Nat) : Java.Node :=
  .node kind role ⟨⟨start, 1, start + 1⟩, stop⟩ []

/-- A text that joins a letter and the value of a field. -/
def joinedSource : Source := { path := ⟨"A.java"⟩, text := "\"v\" + (X)" }

/-- The tree of that text. -/
def joinedNode : Java.Node :=
  .node .binary .plain ⟨⟨0, 1, 1⟩, 9⟩
    [leafAt .text .left 0 3, leafAt .token .operator 4 5,
      .node .parenthesized .right ⟨⟨6, 1, 7⟩, 9⟩
        [leafAt .token .plain 6 7, leafAt .name .plain 7 8, leafAt .token .plain 8 9]]

/-- The text of the initializer of the field. -/
def fieldSource : Source := { path := ⟨"A.java"⟩, text := "0x2" }

/-- The field. -/
def twoField : Declaration where
  id := ⟨⟨"A.java"⟩, 0, 3⟩
  name := "X"
  kind := .field
  location := ⟨⟨"A.java"⟩, 1, 1, 0, 3⟩
  language := .java
  initializer := some (Java.expr fieldSource (leafAt .integer .plain 0 3))

/-- The project with this field alone. -/
def twoProject : Project := ({} : Project).addDeclaration twoField

/-- The text is known, and it is the value of the term. -/
theorem known_value_iff_no_deviation_joined :
    twoProject.HasValue (fun _ => some (.int 2)) (some twoField)
        (.plus (.text ['v']) (.group (.reference "X"))) (.text "v2") 0 ∧
      twoProject.evaluate? (some twoField) (Java.expr joinedSource joinedNode) =
        some (.text "v2") := by
  have hwritten : twoProject.WrittenAs fun _ => some (.int 2) := by
    intro f hf e he
    cases he
    obtain rfl : f = twoField :=
      List.mem_singleton.mp (mem_added_of_find? (find?_of_mem_declarations hf))
    refine ⟨fieldSource, leafAt .integer .plain 0 3, .int rfl ?_, rfl⟩
    exact .based .hexadecimal 0 (by decide +kernel) (by decide)
  have hwrites : Java.Writes joinedSource joinedNode
      (.plus (.text ['v']) (.group (.reference "X"))) := by
    have htext : Java.Writes joinedSource (leafAt .text .left 0 3) (.text ['v']) :=
      .text rfl (by decide +kernel)
    have hname : Java.Writes joinedSource (leafAt .name .plain 7 8)
        (.reference (Text.compact (joinedSource.slice ⟨⟨7, 1, 8⟩, 8⟩))) := .reference rfl
    rw [show Text.compact (joinedSource.slice ⟨⟨7, 1, 8⟩, 8⟩) = "X" by decide +kernel] at hname
    exact .plus rfl rfl (by decide +kernel) rfl rfl htext (.group rfl rfl hname)
  have hvalue : twoProject.HasValue (fun _ => some (.int 2)) (some twoField)
      (.plus (.text ['v']) (.group (.reference "X"))) (.text "v2") 0 := by
    have hescaped : Java.Escaped ['v'] ['v'] 0 := .plain (by decide) (by decide) .nil
    have hfield : twoProject.HasValue (fun _ => some (.int 2)) (some twoField) (.reference "X")
        (.int (2 : Nat)) 0 := .reference (f := twoField) rfl rfl (hasValue_int (by decide))
    have hjoined := HasValue.join (.text hescaped) (.group hfield) (.inl rfl)
    have hshown :
        (Constant.text (String.ofList ['v'])).shown ++ (Constant.int (2 : Nat)).shown = "v2" := by
      decide +kernel
    rwa [hshown] at hjoined
  have hknown :
      (twoProject.evaluate? (some twoField) (Java.expr joinedSource joinedNode)).isSome = true := by
    decide +kernel
  obtain ⟨v, hv⟩ := Option.isSome_iff_exists.mp hknown
  have heq := (known_value_iff_no_deviation hwritten hwrites hv hvalue).1.mpr rfl
  exact ⟨hvalue, hv.trans (congrArg some heq)⟩

/-- A class with a field that is initialized with a sum. -/
def sumProject : Project :=
  ({} : Project).merge
    (Java.outline ⟨"A.java"⟩ "class A \x7b\n    static final int X = 1 + 2;\n\x7d\n")

/-- The text of the sum. -/
def sumSource : Source := { path := ⟨"A.java"⟩, text := "1 + 2" }

/-- The tree of the sum. -/
def sumNode : Java.Node :=
  .node .binary .plain ⟨⟨0, 1, 1⟩, 5⟩
    [leafAt .integer .left 0 1, leafAt .token .operator 2 3, leafAt .integer .right 4 5]

theorem writes_sumNode : Java.Writes sumSource sumNode (.plus (.int 1) (.int 2)) := by
  refine .plus rfl rfl (by decide +kernel) rfl rfl (.int rfl (.decimal ?_ (by decide)))
    (.int rfl (.decimal ?_ (by decide)))
  · decide +kernel
  · decide +kernel

theorem expr_sumNode : Java.expr sumSource sumNode = .concat [.int 1, .int 2] := by
  have hleft := Java.expr_of_integer (s := sumSource) (t := leafAt .integer .left 0 1) (n := 1) rfl
    (.decimal (by decide +kernel) (by decide))
  have hright :=
    Java.expr_of_integer (s := sumSource) (t := leafAt .integer .right 4 5) (n := 2) rfl
    (.decimal (by decide +kernel) (by decide))
  rw [Java.expr_of_plus rfl rfl (by decide +kernel) rfl rfl, hleft, hright]
  rfl

/-- An expression whose two operands are integers. -/
theorem eq_concat_of_asInt? {e : Expr} {a b : Int}
    (h : e.operands.map Expr.asInt? = [some a, some b]) : e = .concat [.int a, .int b] := by
  have hint : ∀ {o : Expr} {n : Int}, o.asInt? = some n → o = .int n := by
    intro o n ho
    cases o <;> cases ho
    rfl
  unfold Expr.operands at h
  split at h
  · obtain ⟨x, rest, rfl, hx, hrest⟩ := List.map_eq_cons_iff.mp h
    obtain ⟨y, rest, rfl, hy, hnil⟩ := List.map_eq_cons_iff.mp hrest
    rw [hint hx, hint hy, List.map_eq_nil_iff.mp hnil]
  · simp at h

/-- **Integers are not added.** A field is initialized with `1 + 2`. Its value is the integer 3, and
it is evaluated to the text `12`. -/
theorem sum_evaluated_as_text :
    (∃ written, sumProject.WrittenAs written ∧
        sumProject.HasValue written sumProject.types.head? (.reference "X") (.int 3) 1) ∧
      sumProject.evaluate? sumProject.types.head? (.reference "X") = some (.text "12") := by
  have hfields : (sumProject.declarations.all fun f => f.kind != .field ||
      (f.initializer.map fun e => e.operands.map Expr.asInt?) == some [some 1, some 2]) = true := by
    decide +kernel
  have hfound : (sumProject.findField? sumProject.types.head? "X").isSome = true := by
    decide +kernel
  obtain ⟨f, hf⟩ := Option.isSome_iff_exists.mp hfound
  refine ⟨⟨fun f => if f.kind = .field then some (.plus (.int 1) (.int 2)) else none, ?_, ?_⟩, by
    decide +kernel⟩
  · intro f hf e he
    obtain ⟨hkind, rfl⟩ : f.kind = .field ∧ Java.Term.plus (.int 1) (.int 2) = e := by
      simpa using he
    have hinit := List.all_eq_true.mp hfields f hf
    simp only [hkind, bne_self_eq_false, Bool.false_or, beq_iff_eq, Option.map_eq_some_iff] at hinit
    obtain ⟨e, he, hoperands⟩ := hinit
    refine ⟨sumSource, sumNode, writes_sumNode, ?_⟩
    rw [he, eq_concat_of_asInt? hoperands, expr_sumNode]
  · refine .reference hf (if_pos (kind_of_findField? hf).1) ?_
    exact hasValue_plus (m := 1) (n := 2) (by decide)

end AdLint.Project
