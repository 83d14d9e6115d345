import AdLint.Check.FileNaming
import AdLint.Proofs.CaselessStart
import AdLint.Proofs.KnownStart

/-!
# Names of created files that may be right

A call is reported when the text that its file name is known to begin with does not begin with the
required word. That is right when the known text is the whole name, and when it already differs from
the word. It is not right when the known text is a proper part of the word and what follows is not
known: then the name may go on with the rest of the word. So a name such as `"ad" + suffix` is
reported, although it may be the right one. This is the only way in which a reported name may be
right. A truth value after the known text is known too, and its first letter is not in the word.

## Main definitions

* `Project.Completes`, `Project.MayRead`: the texts that operands and an expression may have
* `Project.StopsAtUnknown`: the known start of a concatenation ends where nothing is known
* `FileNaming.report?`: what is reported about a call

## Main results

* `Project.exists_completes`, `Project.Completes.exists_join_eq`: how the start of a concatenation
  may go on
* `FileNaming.report?_eq_some_iff`: the calls that are reported by default
* `FileNaming.reported_name_may_be_right_iff`: when a reported name may be right
-/

namespace AdLint

theorem Constant.eq_truth_of_asTruth? {c : Constant} {b : Bool} (h : c.asTruth? = some b) :
    c = .truth b := by
  cases c with
  | truth b' => exact congrArg Constant.truth (Option.some.inj h)
  | _ => cases h

theorem join_replicate_empty (n : Nat) : String.join (List.replicate n "") = "" := by
  induction n with
  | zero => rfl
  | succ n ih => rw [List.replicate_succ, String.join_cons, ih, String.append_empty]

namespace Project

variable {p : Project} {scope : Option Declaration} {e : Expr} {operands : List Expr}
    {texts : List String}

/-! ## Texts of a partly known concatenation -/

/-- Texts that operands may have when nothing is taken for granted behind the first one that is not
known: up to there they are the texts of the values, and from there on they are any texts. -/
inductive Completes (p : Project) (scope : Option Declaration) : List Expr → List String → Prop
  | nil : Completes p scope [] []
  | known {e : Expr} {c : Constant} {operands : List Expr} {texts : List String}
      (hvalue : p.evaluate? scope e = some c) (hrest : Completes p scope operands texts) :
      Completes p scope (e :: operands) (c.shown :: texts)
  | unknown {e : Expr} {operands : List Expr} {texts : List String}
      (hvalue : p.evaluate? scope e = none) (hlength : texts.length = operands.length + 1) :
      Completes p scope (e :: operands) texts

/-- A text that an expression may have: of a concatenation, texts of its operands that are joined,
and else the text of its value, or any text if the value is not known. -/
def MayRead (p : Project) (scope : Option Declaration) (e : Expr) (text : String) : Prop :=
  match e with
  | .concat operands => ∃ texts, p.Completes scope operands texts ∧ String.join texts = text
  | e => ∀ c, p.evaluate? scope e = some c → text = c.shown

/-- The leading operands that are known texts or integers are followed by one that is not known. -/
def StopsAtUnknown (p : Project) (scope : Option Declaration) (operands : List Expr) : Prop :=
  ∃ before e after, operands = before ++ e :: after ∧
    (∀ o ∈ before, ∃ c, p.evaluate? scope o = some c ∧ c.asTruth? = none) ∧
      p.evaluate? scope e = none

theorem mayRead_of_ne_concat {text : String} (h : ∀ operands, e ≠ .concat operands) :
    p.MayRead scope e text ↔ ∀ c, p.evaluate? scope e = some c → text = c.shown := by
  cases e with
  | concat operands => exact absurd rfl (h operands)
  | _ => exact Iff.rfl

theorem StopsAtUnknown.cons {c : Constant} (h : p.StopsAtUnknown scope operands)
    (hc : p.evaluate? scope e = some c) (hplain : c.asTruth? = none) :
    p.StopsAtUnknown scope (e :: operands) := by
  obtain ⟨before, o, after, rfl, hbefore, ho⟩ := h
  refine ⟨e :: before, o, after, rfl, ?_, ho⟩
  exact List.forall_mem_cons.mpr ⟨⟨c, hc, hplain⟩, hbefore⟩

theorem leadingTexts_of_unknown (h : p.evaluate? scope e = none) :
    p.leadingTexts scope (e :: operands) = [] := by
  rw [leadingTexts, textualOperand?, h]

theorem leadingTexts_of_truth {b : Bool} (h : p.evaluate? scope e = some (.truth b)) :
    p.leadingTexts scope (e :: operands) = [] := by
  rw [leadingTexts, textualOperand?, h]

/-- **The start of a concatenation may go on with any text** if it ends where nothing is known. -/
theorem exists_completes (h : p.StopsAtUnknown scope operands) (tail : String) :
    ∃ texts, p.Completes scope operands texts ∧
      String.join texts = String.join (p.leadingTexts scope operands) ++ tail := by
  obtain ⟨before, e, after, rfl, hbefore, he⟩ := h
  induction before with
  | nil =>
    refine ⟨tail :: List.replicate after.length "", .unknown he (by simp), ?_⟩
    rw [List.nil_append, leadingTexts_of_unknown he, String.join_cons, join_replicate_empty,
      String.join_nil, String.append_empty, String.empty_append]
  | cons o before ih =>
    obtain ⟨⟨c, hc, hplain⟩, hbefore⟩ := List.forall_mem_cons.mp hbefore
    obtain ⟨texts, hcompletes, hjoin⟩ := ih hbefore
    refine ⟨c.shown :: texts, .known hc hcompletes, ?_⟩
    rw [List.cons_append, leadingTexts_cons hc hplain, String.join_cons, String.join_cons, hjoin,
      String.append_assoc]

/-- The text of a concatenation begins with its start. Unless the start ends where nothing is known,
it is the whole text, or a truth value follows. -/
theorem Completes.exists_join_eq (h : p.Completes scope operands texts) :
    ∃ rest, String.join texts = String.join (p.leadingTexts scope operands) ++ rest ∧
      (¬ p.StopsAtUnknown scope operands → rest = "" ∨ ∃ b more,
        rest = (Constant.truth b).shown ++ more) := by
  induction h with
  | nil => exact ⟨"", rfl, fun _ => .inl rfl⟩
  | @known e c operands texts hvalue _ ih =>
    cases hplain : c.asTruth? with
    | none =>
      obtain ⟨rest, hjoin, hends⟩ := ih
      refine ⟨rest, ?_, fun hstops => hends fun hrest => hstops (hrest.cons hvalue hplain)⟩
      rw [leadingTexts_cons hvalue hplain, String.join_cons, String.join_cons, hjoin,
        String.append_assoc]
    | some b =>
      obtain rfl := Constant.eq_truth_of_asTruth? hplain
      refine ⟨(Constant.truth b).shown ++ String.join texts, ?_, fun _ => .inr ⟨b, _, rfl⟩⟩
      rw [leadingTexts_of_truth hvalue, String.join_cons, String.join_nil, String.empty_append]
  | @unknown e operands texts hvalue _ =>
    refine ⟨String.join texts, ?_, fun hstops => ?_⟩
    · rw [leadingTexts_of_unknown hvalue, String.join_nil, String.empty_append]
    · exact absurd ⟨[], e, operands, rfl, List.forall_mem_nil _, hvalue⟩ hstops

end Project

namespace FileNaming

variable {p : Project} {call : Call} {f : Finding}

/-! ## Reported calls -/

/-- What is reported about a call. -/
def report? (s : FileNamingSettings) (p : Project) (call : Call) : Option Finding :=
  (Pattern.parse? s.requiredPattern).bind fun pattern => finding? p s.requiredPattern pattern call

theorem findings_eq_filterMap (s : FileNamingSettings) (p : Project) :
    findings s p = p.calls.filterMap (report? s p) := by
  unfold findings report?
  cases Pattern.parse? s.requiredPattern with
  | none => exact (List.filterMap_none _).symm
  | some pattern => rfl

/-- The finding about a call that gives a file a name with this start, where another pattern is
asked for. -/
def misnamed (written : String) (call : Call) (start : String) : Finding :=
  { Finding.ofRule .unprefixedFile call.location start with
    message := s!"File name '{start}' passed to {call.name}() must match '{written}'" }

theorem finding?_eq_some_iff {written : String} {pattern : Pattern} :
    finding? p written pattern call = some f ↔
      ∃ e start, nameArgument? call = some e ∧
        p.knownStart? (p.innermost? call.location) e = some start ∧ ¬ pattern.isMatch start = true ∧
        misnamed written call start = f := by
  simp only [finding?, Option.bind_eq_bind, Option.bind_eq_some_iff, Option.ite_none_left_eq_some,
    Option.some.injEq]
  constructor
  · rintro ⟨e, he, start, hstart, hmatch, hf⟩
    exact ⟨e, start, he, hstart, hmatch, hf⟩
  · rintro ⟨e, start, he, hstart, hmatch, hf⟩
    exact ⟨e, he, start, hstart, hmatch, hf⟩

/-- The word that names of files begin with by default is in small letters. -/
theorem isLower_of_mem_word : ∀ c ∈ "adservices".toList, c.isLower = true :=
  List.all_eq_true.mp (by decide)

/-- **The calls that are reported by default** give a file a name of which the known start does not
begin with the word. -/
theorem report?_eq_some_iff :
    report? {} p call = some f ↔
      ∃ e start, nameArgument? call = some e ∧
        p.knownStart? (p.innermost? call.location) e = some start ∧
        ¬ Text.BeginsCaseless "adservices" start ∧ misnamed "(?i)^adservices" call start = f := by
  rw [report?, Pattern.parse?_requiredPattern, Option.bind_some, finding?_eq_some_iff]
  simp only [Pattern.isMatch_atStart isLower_of_mem_word]

/-! ## Reported names that may be right -/

/-- A truth value does not go on with the word: its first letter is not in it. -/
theorem not_beginsCaseless_append_truth {start rest : String} {b : Bool}
    (h : ¬ Text.BeginsCaseless "adservices" start) :
    ¬ Text.BeginsCaseless "adservices" (start ++ ((Constant.truth b).shown ++ rest)) := by
  rw [Text.beginsCaseless_append_iff, String.toList_append, List.map_append]
  rintro (hstart | ⟨left, hword, hleft⟩)
  · exact h hstart
  · cases left with
    | nil =>
      rw [List.append_nil] at hword
      rw [Text.BeginsCaseless, hword] at h
      exact h List.prefix_rfl
    | cons c left =>
      have hc : c ∈ "adservices".toList.map Text.fold :=
        hword ▸ List.mem_append_right _ List.mem_cons_self
      cases b with
      | true =>
        obtain rfl : c = 't' := (List.cons_prefix_cons.mp hleft).1
        exact absurd hc (by decide)
      | false =>
        obtain rfl : c = 'f' := (List.cons_prefix_cons.mp hleft).1
        exact absurd hc (by decide)

/-- A name that is no concatenation is known as a whole, or not at all. -/
theorem eq_of_mayRead {scope : Option Declaration} {e : Expr} {start text : String}
    (hconcat : ∀ operands, e ≠ .concat operands) (hstart : p.knownStart? scope e = some start)
    (hreads : p.MayRead scope e text) : text = start := by
  rw [Project.knownStart?_of_ne_concat hconcat] at hstart
  obtain ⟨c, hc, hshown⟩ := Option.bind_eq_some_iff.mp hstart
  rw [(Project.mayRead_of_ne_concat hconcat).mp hreads c hc]
  cases c with
  | text value => exact Option.some.inj hshown
  | _ => cases hshown

/-- A start that does not begin with the word may be the start of a name that does, if it is a part
of the word and nothing is known behind it. -/
theorem exists_mayRead_iff {scope : Option Declaration} {e : Expr} {start : String}
    (hstart : p.knownStart? scope e = some start)
    (hwrong : ¬ Text.BeginsCaseless "adservices" start) :
    (∃ text, p.MayRead scope e text ∧ Text.BeginsCaseless "adservices" text) ↔
      ∃ operands, e = .concat operands ∧ p.StopsAtUnknown scope operands ∧
        start.toList.map Text.fold <+: "adservices".toList := by
  constructor
  · rintro ⟨text, hreads, hright⟩
    by_cases hconcat : ∃ operands, e = .concat operands
    · obtain ⟨operands, rfl⟩ := hconcat
      obtain ⟨rfl, -⟩ := Project.knownStart?_concat.mp hstart
      obtain ⟨texts, hcompletes, rfl⟩ := hreads
      obtain ⟨rest, hjoin, hends⟩ := hcompletes.exists_join_eq
      rw [hjoin] at hright
      have hstops : p.StopsAtUnknown scope operands := by
        by_contra hstops
        rcases hends hstops with rfl | ⟨b, more, rfl⟩
        · rw [String.append_empty] at hright
          exact hwrong hright
        · exact not_beginsCaseless_append_truth hwrong hright
      rw [Text.beginsCaseless_append_iff, Text.map_fold_of_isLower isLower_of_mem_word] at hright
      obtain ⟨left, hword, -⟩ := hright.resolve_left hwrong
      exact ⟨operands, rfl, hstops, left, hword.symm⟩
    · have htext := eq_of_mayRead (fun operands he => hconcat ⟨operands, he⟩) hstart hreads
      exact absurd (htext ▸ hright) hwrong
  · rintro ⟨operands, rfl, hstops, left, hword⟩
    obtain ⟨rfl, -⟩ := Project.knownStart?_concat.mp hstart
    -- what is left of the word is what the first unknown operand may be
    obtain ⟨texts, hcompletes, hjoin⟩ := Project.exists_completes hstops (String.ofList left)
    refine ⟨_, ⟨texts, hcompletes, hjoin⟩, Text.beginsCaseless_append_iff.mpr (.inr ⟨left, ?_, ?_⟩)⟩
    · rw [Text.map_fold_of_isLower isLower_of_mem_word, hword]
    · have hleft : ∀ c ∈ left, c.isLower = true := fun c hc =>
        isLower_of_mem_word c (hword ▸ List.mem_append_right _ hc)
      have hfolded : (String.ofList left).toList.map Text.fold = left := by
        rw [String.toList_ofList, Text.map_fold_of_isLower hleft]
      exact ⟨[], by rw [List.append_nil, hfolded]⟩

/-- **When a reported name may be right.** A call is reported if it gives a file a name of which
some start is known that does not begin with the word, and what is reported is this start. The name
may be right all the same if and only if the start is a part of the word and the operand behind it
is not known. -/
theorem reported_name_may_be_right_iff (p : Project) :
    findings {} p = p.calls.filterMap (report? {} p) ∧
      (∀ call : Call, report? {} p call ≠ none ↔
        ∃ e start, nameArgument? call = some e ∧
          p.knownStart? (p.innermost? call.location) e = some start ∧
          ¬ Text.BeginsCaseless "adservices" start) ∧
      ∀ (call : Call) (f : Finding), report? {} p call = some f →
        ∃ e, nameArgument? call = some e ∧
          p.knownStart? (p.innermost? call.location) e = some f.subject ∧
          ((∃ text, p.MayRead (p.innermost? call.location) e text ∧
            Text.BeginsCaseless "adservices" text) ↔
            ∃ operands, e = .concat operands ∧
              p.StopsAtUnknown (p.innermost? call.location) operands ∧
              f.subject.toList.map Text.fold <+: "adservices".toList) := by
  refine ⟨findings_eq_filterMap {} p, fun call => ?_, fun call f hreport => ?_⟩
  · rw [Option.ne_none_iff_exists']
    constructor
    · rintro ⟨f, hreport⟩
      obtain ⟨e, start, he, hstart, hwrong, -⟩ := report?_eq_some_iff.mp hreport
      exact ⟨e, start, he, hstart, hwrong⟩
    · rintro ⟨e, start, he, hstart, hwrong⟩
      exact ⟨_, report?_eq_some_iff.mpr ⟨e, start, he, hstart, hwrong, rfl⟩⟩
  · obtain ⟨e, start, he, hstart, hwrong, rfl⟩ := report?_eq_some_iff.mp hreport
    exact ⟨e, he, hstart, exists_mayRead_iff hstart hwrong⟩

/-- A call that opens a file, whose name is a text before something that is not known. -/
def openingOf (start : String) : Call where
  receiver := some "context"
  name := "openFileOutput"
  arguments := [.concat [.text start, .reference "suffix"], .int 0]
  kind := .method
  location := { file := ⟨"Store.java"⟩, line := 3, column := 9, start := 70, stop := 110 }
  language := .java

/-- A name that differs from the word in its start is wrong, whatever follows. -/
theorem reported_name_may_be_right_iff_cache :
    ∃ f, report? {} {} (openingOf "cache_") = some f ∧
      ¬ ∃ text, ({} : Project).MayRead (({} : Project).innermost? (openingOf "cache_").location)
        (.concat [.text "cache_", .reference "suffix"]) text ∧
        Text.BeginsCaseless "adservices" text := by
  have hreport : report? {} {} (openingOf "cache_") =
      some (misnamed "(?i)^adservices" (openingOf "cache_") "cache_") :=
    report?_eq_some_iff.mpr ⟨_, _, rfl, by decide +kernel, by decide +kernel, rfl⟩
  refine ⟨_, hreport, ?_⟩
  obtain ⟨e, he, -, hright⟩ := (reported_name_may_be_right_iff {}).2.2 _ _ hreport
  cases he
  intro hreads
  obtain ⟨-, -, -, hpart⟩ := hright.mp hreads
  exact absurd hpart (by decide +kernel)

/-- **A name that may be right is reported**: the start is `ad`, and the rest is not known. -/
theorem short_start_reported :
    findings {} { calls := [openingOf "ad"] } = [misnamed "(?i)^adservices" (openingOf "ad") "ad"] ∧
      nameArgument? (openingOf "ad") = some (.concat [.text "ad", .reference "suffix"]) ∧
      ({ calls := [openingOf "ad"] } : Project).MayRead
        (({ calls := [openingOf "ad"] } : Project).innermost? (openingOf "ad").location)
        (.concat [.text "ad", .reference "suffix"]) "adservices_cache" ∧
      Text.BeginsCaseless "adservices" "adservices_cache" := by
  refine ⟨?_, rfl, ⟨["ad", "services_cache"], ?_, rfl⟩, by decide +kernel⟩
  · rw [findings_eq_filterMap, List.filterMap_cons_some, List.filterMap_nil]
    exact report?_eq_some_iff.mpr ⟨_, _, rfl, by decide +kernel, by decide +kernel, rfl⟩
  · have hsuffix : ({ calls := [openingOf "ad"] } : Project).evaluate?
        (({ calls := [openingOf "ad"] } : Project).innermost? (openingOf "ad").location)
        (.reference "suffix") = none := by
      decide +kernel
    exact .known (c := .text "ad") rfl (.unknown hsuffix rfl)

end FileNaming

end AdLint
