import AdLint.Proofs.Deviation
import AdLint.Proofs.Evaluation

/-!
# The known start of a text

The text that an expression begins with may be known where its value is not. It is read off the
operands of a concatenation from left to right, up to the first one that is no known text or
integer. Whatever the other operands stand for, the text of the whole begins with it: no operand is
left out on the way, and an operand that is known on its own is known to have the same value inside
the concatenation, where less depth is left.

A truth value is not taken as text here, so that the start ends there although the value of the
concatenation goes on.

## Main definitions

* `Project.Fits`: texts that some operands may have

## Main results

* `Project.Fits.leadingTexts_prefix`: the leading texts begin all texts that the operands may have
* `Project.exists_fits_of_evaluate?`: the value of a concatenation is one of these texts
* `Project.knownStart?_refines_evaluate?`: the known start and the value agree
-/

namespace AdLint

theorem exists_join_eq_of_prefix {xs ys : List String} (h : xs <+: ys) :
    ∃ rest, String.join ys = String.join xs ++ rest := by
  obtain ⟨zs, rfl⟩ := h
  exact ⟨String.join zs, String.join_append⟩

/-- Only an empty text shows nothing. -/
theorem Constant.shown_ne_empty {c : Constant} (h : c ≠ .text "") : c.shown ≠ "" := by
  cases c with
  | int a =>
    intro hempty
    have hdigits := toList_toString_int a
    rw [show toString a = "" from hempty] at hdigits
    split at hdigits
    · exact Nat.toDigits_ne_nil hdigits.symm
    · cases hdigits
  | text s =>
    rintro rfl
    exact h rfl
  | truth b => cases b <;> decide

namespace Project

variable {p : Project} {scope : Option Declaration} {e : Expr} {operands : List Expr}
    {texts : List String}

/-! ## Operands -/

theorem textualOperand?_eq_some_iff {text : String} :
    p.textualOperand? scope e = some text ↔
      ∃ c, p.evaluate? scope e = some c ∧ c.asTruth? = none ∧ c.shown = text := by
  unfold textualOperand?
  cases p.evaluate? scope e with
  | none => simp
  | some c => cases c <;> simp [Constant.asTruth?, Constant.shown]

/-- Texts that operands may have. A known operand has the text of its value, any other one has any
text. -/
def Fits (p : Project) (scope : Option Declaration) (operands : List Expr) (texts : List String) :
    Prop :=
  List.Forall₂ (fun e text => ∀ c, p.evaluate? scope e = some c → text = c.shown) operands texts

theorem leadingTexts_cons {c : Constant} (hc : p.evaluate? scope e = some c)
    (hplain : c.asTruth? = none) :
    p.leadingTexts scope (e :: operands) = c.shown :: p.leadingTexts scope operands := by
  rw [leadingTexts, textualOperand?_eq_some_iff.mpr ⟨c, hc, hplain, rfl⟩]

/-- **Whatever texts the operands have, the leading ones come first.** -/
theorem Fits.leadingTexts_prefix (h : p.Fits scope operands texts) :
    p.leadingTexts scope operands <+: texts := by
  induction h with
  | nil => exact List.prefix_rfl
  | cons htext _ ih =>
    rw [leadingTexts]
    split
    · next text hknown =>
      obtain ⟨c, hc, -, rfl⟩ := textualOperand?_eq_some_iff.mp hknown
      rw [htext c hc]
      exact (List.prefix_cons_inj _).mpr ih
    · -- the leading texts end here, and nothing is said about the rest
      exact List.nil_prefix

/-- If all operands are known texts or integers, there are no other texts than the leading ones. -/
theorem Fits.leadingTexts_eq (h : p.Fits scope operands texts)
    (hall : ∀ e ∈ operands, ∃ c, p.evaluate? scope e = some c ∧ c.asTruth? = none) :
    p.leadingTexts scope operands = texts := by
  induction h with
  | nil => rfl
  | cons htext _ ih =>
    obtain ⟨⟨c, hc, hplain⟩, hall⟩ := List.forall_mem_cons.mp hall
    rw [leadingTexts_cons hc hplain, htext c hc, ih hall]

/-- An operand that is known inside a concatenation is known on its own. -/
theorem evaluate?_of_operand {c : Constant} (h : p.evaluateWithin? maxDepth scope e = some c) :
    p.evaluate? scope e = some c :=
  evaluateWithin?_mono (Nat.le_succ maxDepth) h

/-- The value of a concatenation is made of texts that its operands may have, all of them known. -/
theorem exists_fits_of_evaluate? {v : String}
    (h : p.evaluate? scope (.concat operands) = some (.text v)) :
    ∃ texts, p.Fits scope operands texts ∧ String.join texts = v ∧
      ∀ e ∈ operands, ∃ c, p.evaluate? scope e = some c := by
  obtain ⟨values, hvalues, hjoined⟩ := evaluateWithin?_concat.mp h
  refine ⟨values.map Constant.shown, ?_, Constant.text.inj hjoined, ?_⟩
  · refine List.forall₂_map_right_iff.mpr (hvalues.imp fun e w hw c hc => ?_)
    rw [Option.some.inj ((evaluate?_of_operand hw).symm.trans hc)]
  · intro e he
    obtain ⟨c, hc⟩ := exists_of_mem_forall₂ hvalues he
    exact ⟨c, evaluate?_of_operand hc⟩

/-! ## Known starts -/

theorem knownStart?_concat {start : String} :
    p.knownStart? scope (.concat operands) = some start ↔
      String.join (p.leadingTexts scope operands) = start ∧ start ≠ "" := by
  simp only [knownStart?, String.isEmpty_iff]
  split
  · next hempty => simp [hempty, eq_comm]
  · next hempty =>
    rw [Option.some.injEq]
    exact ⟨fun h => ⟨h, h ▸ hempty⟩, And.left⟩

theorem knownStart?_of_ne_concat (h : ∀ operands, e ≠ .concat operands) :
    p.knownStart? scope e = (p.evaluate? scope e).bind Constant.asText? := by
  cases e with
  | concat operands => exact absurd rfl (h operands)
  | _ => rfl

/-- A known start begins whatever the operands are. -/
theorem exists_join_of_knownStart? {start : String}
    (h : p.knownStart? scope (.concat operands) = some start)
    (hfits : p.Fits scope operands texts) : ∃ rest, String.join texts = start ++ rest := by
  obtain ⟨rfl, -⟩ := knownStart?_concat.mp h
  exact exists_join_eq_of_prefix hfits.leadingTexts_prefix

theorem eq_of_knownStart?_of_ne_concat {start v : String}
    (hconcat : ∀ operands, e ≠ .concat operands)
    (h : p.knownStart? scope e = some start) (hv : p.evaluate? scope e = some (.text v)) :
    start = v := by
  rw [knownStart?_of_ne_concat hconcat, hv] at h
  exact (Option.some.inj h).symm

/-- A first operand that shows something is a start. -/
theorem knownStart?_cons_ne_none {c : Constant} (hc : p.evaluate? scope e = some c)
    (hplain : c.asTruth? = none) (hshown : c.shown ≠ "") :
    p.knownStart? scope (.concat (e :: operands)) ≠ none := by
  have hne : String.join (p.leadingTexts scope (e :: operands)) ≠ "" := by
    rw [leadingTexts_cons hc hplain, String.join_cons]
    intro hempty
    exact hshown (String.append_eq_empty_iff.mp hempty).1
  rw [knownStart?_concat.mpr ⟨rfl, hne⟩]
  exact Option.some_ne_none _

/-- A value that is no empty text has a known start, unless it begins with a truth value or with an
operand that shows nothing. -/
theorem knownStart?_ne_none {v : String} (hv : p.evaluate? scope e = some (.text v)) (hne : v ≠ "")
    (hfirst : ∀ first rest, e = .concat (first :: rest) →
      (∀ b, p.evaluate? scope first ≠ some (.truth b)) ∧
        p.evaluate? scope first ≠ some (.text "")) :
    p.knownStart? scope e ≠ none := by
  by_cases hconcat : ∃ operands, e = .concat operands
  · obtain ⟨operands, rfl⟩ := hconcat
    obtain ⟨texts, hfits, rfl, hknown⟩ := exists_fits_of_evaluate? hv
    cases operands with
    | nil =>
      cases hfits
      exact absurd rfl hne
    | cons first rest =>
      obtain ⟨c, hc⟩ := hknown first List.mem_cons_self
      obtain ⟨htruth, htext⟩ := hfirst first rest rfl
      have hplain : c.asTruth? = none := by
        cases c with
        | truth b => exact absurd hc (htruth b)
        | _ => rfl
      exact knownStart?_cons_ne_none hc hplain
        (Constant.shown_ne_empty fun hempty => htext (hempty ▸ hc))
  · rw [knownStart?_of_ne_concat fun operands he => hconcat ⟨operands, he⟩, hv]
    exact Option.some_ne_none _

/-- **The known start and the value of an expression agree.** If both are known, the value begins
with the start, and is the start if the expression is no concatenation or one of known texts and
integers alone. A value that is no empty text has a known start, unless it begins with a truth value
or with an empty text. And whatever the operands of a concatenation stand for that are not known,
its text begins with the start. -/
theorem knownStart?_refines_evaluate? (p : Project) (scope : Option Declaration) :
    (∀ (e : Expr) (start v : String), p.knownStart? scope e = some start →
        p.evaluate? scope e = some (.text v) →
        (∃ rest, v = start ++ rest) ∧
          ((∀ operands, e = .concat operands → ∀ o ∈ operands,
              (∃ s, p.evaluate? scope o = some (.text s)) ∨
                ∃ a, p.evaluate? scope o = some (.int a)) →
            start = v)) ∧
      (∀ (e : Expr) (v : String), p.evaluate? scope e = some (.text v) → v ≠ "" →
        (∀ first rest, e = .concat (first :: rest) →
          (∀ b, p.evaluate? scope first ≠ some (.truth b)) ∧
            p.evaluate? scope first ≠ some (.text "")) →
        p.knownStart? scope e ≠ none) ∧
      ∀ (operands : List Expr) (start : String) (texts : List String),
        p.knownStart? scope (.concat operands) = some start → p.Fits scope operands texts →
          ∃ rest, String.join texts = start ++ rest := by
  refine ⟨?_, fun e v => knownStart?_ne_none, fun _ _ _ => exists_join_of_knownStart?⟩
  intro e start v hstart hv
  by_cases hconcat : ∃ operands, e = .concat operands
  · obtain ⟨operands, rfl⟩ := hconcat
    obtain ⟨texts, hfits, rfl, -⟩ := exists_fits_of_evaluate? hv
    refine ⟨exists_join_of_knownStart? hstart hfits, fun hall => ?_⟩
    obtain ⟨rfl, -⟩ := knownStart?_concat.mp hstart
    rw [hfits.leadingTexts_eq]
    intro o ho
    rcases hall operands rfl o ho with ⟨s, hs⟩ | ⟨a, ha⟩
    · exact ⟨_, hs, rfl⟩
    · exact ⟨_, ha, rfl⟩
  · have heq : start = v :=
      eq_of_knownStart?_of_ne_concat (fun operands he => hconcat ⟨operands, he⟩) hstart hv
    exact ⟨⟨"", by rw [heq, String.append_empty]⟩, fun _ => heq⟩

/-- A text, an integer and a truth value, of which the start has the first two, and a text before
something that is not known. -/
theorem knownStart?_refines_evaluate?_operands :
    ({} : Project).evaluate? none (.concat [.text "v", .int 2, .truth true]) =
      some (.text "v2true") ∧
      ({} : Project).knownStart? none (.concat [.text "v", .int 2, .truth true]) ≠ none ∧
      (∃ rest, "v2true" = "v2" ++ rest) ∧
      ({} : Project).knownStart? none (.concat [.text "v", .int 2]) = some "v2" ∧
      ∀ text, ∃ rest, String.join ["v", text] = "v" ++ rest := by
  obtain ⟨hagree, hknown, hfits⟩ := knownStart?_refines_evaluate? {} none
  have hvalue : ({} : Project).evaluate? none (.concat [.text "v", .int 2, .truth true]) =
      some (.text "v2true") := by
    decide +kernel
  have hfirst : ({} : Project).evaluate? none (.text "v") = some (.text "v") := rfl
  have hpair : ({} : Project).evaluate? none (.concat [.text "v", .int 2]) = some (.text "v2") := by
    decide +kernel
  refine ⟨hvalue, hknown _ _ hvalue (by decide) ?_, (hagree _ "v2" _ (by decide +kernel) hvalue).1,
    ?_, ?_⟩
  · rintro first rest heq
    obtain ⟨rfl, -⟩ := List.cons.inj (Expr.concat.inj heq)
    rw [hfirst]
    exact ⟨by simp, by simp⟩
  · -- both are known and nothing but texts and integers is there, so they are one
    have hne : ({} : Project).knownStart? none (.concat [.text "v", .int 2]) ≠ none := by
      decide +kernel
    obtain ⟨start, hstart⟩ := Option.ne_none_iff_exists'.mp hne
    rw [hstart, (hagree _ start _ hstart hpair).2]
    intro operands heq o ho
    cases heq
    simp only [List.mem_cons, List.not_mem_nil, or_false] at ho
    rcases ho with rfl | rfl
    · exact .inl ⟨"v", rfl⟩
    · exact .inr ⟨2, rfl⟩
  · intro text
    refine hfits [.text "v", .reference "X"] "v" ["v", text] (by decide +kernel) ?_
    refine .cons ?_ (.cons ?_ .nil)
    · rintro c hc
      rw [hfirst] at hc
      cases hc
      rfl
    · rintro c hc
      cases hc

end Project

end AdLint
