import AdLint.Proofs.JavaTerms
import Mathlib.Data.Nat.Digits.Defs

/-!
# Integer literals

A number is written in decimal digits, or after a mark in binary, octal or hexadecimal ones.
Separators may stand between the digits, letters may be small or capital, and the letters of a type
may follow. The four ways of writing share their characters: a `b` is a digit or the mark of binary
digits, and a zero is a digit, a number or the mark of octal digits. `Spells` says which number such
characters write. The number is read back exactly if it has 63 bits, and nothing is read otherwise.

## Main definitions

* `Separated`: digits with separators between them
* `Spells`: the number that the characters of a literal write

## Main results

* `digitsFrom?_map_digitChar`: digits are read as the number that they write
* `numeral?_of_spells`: what is left without separators and suffixes is read in the right base
* `integer?_of_spells`: an integer literal is read as its number, if this fits
-/

namespace AdLint.Literal

/-! ## How numbers are written -/

/-- A character writes a digit of this value. Letters may be capital. -/
def WritesDigit (v : Nat) (c : Char) : Prop := c = Nat.digitChar v ∨ c = (Nat.digitChar v).toUpper

/-- The characters write digits, with any number of separators between two of them. -/
inductive Separated : List Nat → List Char → Prop
  | last {v : Nat} {c : Char} (hc : WritesDigit v c) : Separated [v] [c]
  | next {v : Nat} {c : Char} {vs : List Nat} {cs : List Char} (hc : WritesDigit v c)
      (separators : Nat)
      (h : Separated vs cs) : Separated (v :: vs) (c :: (List.replicate separators '_' ++ cs))

/-- The characters write a number. Decimal digits have no zeros before them. A zero before other
digits marks them as octal, and it may be separated from them like a digit. -/
inductive Spells (n : Nat) : List Char → Prop
  | decimal {vs : List Nat} {cs : List Char} (h : Separated vs cs) (hdigits : ∀ v ∈ vs, v < 10)
      (hlead : vs.head? = some 0 → vs = [0]) (hvalue : Nat.ofDigits 10 vs.reverse = n) : Spells n cs
  | octal {v : Nat} {vs : List Nat} {cs : List Char} (h : Separated (0 :: v :: vs) cs)
      (hdigits : ∀ w ∈ v :: vs, w < 8) (hvalue : Nat.ofDigits 8 (v :: vs).reverse = n) : Spells n cs
  | binary {vs : List Nat} {cs : List Char} (mark : Char) (hmark : mark ∈ ['b', 'B'])
      (h : Separated vs cs) (hdigits : ∀ v ∈ vs, v < 2) (hvalue : Nat.ofDigits 2 vs.reverse = n) :
      Spells n ('0' :: mark :: cs)
  | hexadecimal {vs : List Nat} {cs : List Char} (mark : Char) (hmark : mark ∈ ['x', 'X'])
      (h : Separated vs cs) (hdigits : ∀ v ∈ vs, v < 16) (hvalue : Nat.ofDigits 16 vs.reverse = n) :
      Spells n ('0' :: mark :: cs)

/-! ## Digits -/

section Digits

variable {v : Nat} {c : Char} {vs : List Nat} {cs : List Char}

/-- What the reader sees of a digit: it is no separator and no suffix, and its small form is the
digit. -/
theorem plain_of_writesDigit (hv : v < 16) (hc : WritesDigit v c) :
    c ≠ '_' ∧ c ∉ ['l', 'L', 'u', 'U'] ∧ c.toLower = Nat.digitChar v := by
  have hsmall : ∀ v < 16, Nat.digitChar v ≠ '_' ∧ Nat.digitChar v ∉ ['l', 'L', 'u', 'U'] ∧
      (Nat.digitChar v).toLower = Nat.digitChar v := by decide
  have hcapital : ∀ v < 16, (Nat.digitChar v).toUpper ≠ '_' ∧
      (Nat.digitChar v).toUpper ∉ ['l', 'L', 'u', 'U'] ∧
        (Nat.digitChar v).toUpper.toLower = Nat.digitChar v := by decide
  rcases hc with rfl | rfl
  · exact hsmall v hv
  · exact hcapital v hv

theorem Separated.ne_nil (h : Separated vs cs) : vs ≠ [] := by
  cases h <;> exact List.cons_ne_nil _ _

/-- Without its separators a number has its digits only, none of them a suffix. -/
theorem Separated.plain (h : Separated vs cs) (hvs : ∀ v ∈ vs, v < 16) :
    Java.plainDigits cs = vs.map Nat.digitChar ∧
      ∀ c ∈ cs.filter (· != '_'), c ∉ ['l', 'L', 'u', 'U'] := by
  induction h with
  | last hc =>
    obtain ⟨hne, hsuffix, hlower⟩ := plain_of_writesDigit (hvs _ List.mem_cons_self) hc
    constructor
    · simp [Java.plainDigits, hne, hlower]
    · intro d hd
      rw [List.mem_singleton.mp (List.mem_of_mem_filter hd)]
      exact hsuffix
  | @next v c vs cs hc separators _ ih =>
    obtain ⟨hne, hsuffix, hlower⟩ := plain_of_writesDigit (hvs _ List.mem_cons_self) hc
    obtain ⟨hplain, hdigits⟩ := ih fun w hw => hvs w (List.mem_cons_of_mem v hw)
    have hfilter : (c :: (List.replicate separators '_' ++ cs)).filter (· != '_') =
        c :: cs.filter (· != '_') := by
      simp [hne]
    constructor
    · rw [Java.plainDigits, hfilter, List.map_cons, hlower, List.map_cons, ← hplain,
        Java.plainDigits]
    · rw [hfilter]
      exact List.forall_mem_cons.mpr ⟨hsuffix, hdigits⟩

/-- **Digits are read as the number that they write**, after a number that was read before. -/
theorem digitsFrom?_map_digitChar {b : Nat} (hb : b ≤ 16) (hvs : ∀ v ∈ vs, v < b) (m : Nat) :
    digitsFrom? b m (vs.map Nat.digitChar) =
      some (m * b ^ vs.length + Nat.ofDigits b vs.reverse) := by
  induction vs generalizing m with
  | nil => simp [digitsFrom?]
  | cons v vs ih =>
    have hv := hvs v List.mem_cons_self
    rw [List.map_cons, digitsFrom?, Java.digit?_digitChar (by omega)]
    simp only [hv, if_true]
    rw [ih (fun w hw => hvs w (List.mem_cons_of_mem v hw)), List.reverse_cons, Nat.ofDigits_append,
      Nat.ofDigits_singleton, List.length_reverse, List.length_cons]
    ring_nf

/-- A number is read if it has a digit and fits. -/
theorem digits?_map_digitChar {b n : Nat} (hb : b ≤ 16) (hvs : ∀ v ∈ vs, v < b) (hne : vs ≠ [])
    (hvalue : Nat.ofDigits b vs.reverse = n) :
    digits? b (vs.map Nat.digitChar) = if n < 2 ^ 63 then some (n : Int) else none := by
  have hempty : (vs.map Nat.digitChar).isEmpty = false := by simpa using hne
  have hfits : n ≤ maxInt64 ↔ n < 2 ^ 63 := by
    have : maxInt64 = 2 ^ 63 - 1 := rfl
    omega
  rw [digits?, hempty, digitsFrom?_map_digitChar hb hvs, hvalue]
  simp [hfits]

end Digits

/-! ## Literals -/

section Literals

variable {n : Nat} {cs suffix : List Char}

/-- A literal is read from what is left of it without separators and suffixes. -/
theorem integer?_append_suffix (hcs : ∀ c ∈ cs.filter (· != '_'), c ∉ ['l', 'L', 'u', 'U'])
    (hsuffix : ∀ c ∈ suffix, c ∈ ['l', 'L', 'u', 'U']) :
    integer? (String.ofList (cs ++ suffix)) = numeral? (Java.plainDigits cs) := by
  have hkept : suffix.filter (· != '_') = suffix := by
    refine List.filter_eq_self.mpr fun c hc => ?_
    have hc := hsuffix c hc
    simp only [List.mem_cons, List.not_mem_nil, or_false] at hc
    rcases hc with rfl | rfl | rfl | rfl <;> rfl
  have hdropped : Text.dropEndWhile (fun c => ['l', 'L', 'u', 'U'].contains c)
      (cs.filter (· != '_') ++ suffix) = cs.filter (· != '_') := by
    rw [Text.dropEndWhile, List.reverse_append, List.dropWhile_append_of_pos]
    · refine Text.dropEndWhile_eq_self fun c hc => ?_
      simpa using hcs c (List.mem_of_getLast? hc)
    · intro c hc
      exact List.contains_iff_mem.mpr (hsuffix c (List.mem_reverse.mp hc))
  rw [integer?, String.toList_ofList, List.filter_append, hkept]
  simp only [hdropped]
  rfl

/-- A mark of two characters stays before the digits, in its small form. -/
theorem Separated.plain_marked {vs : List Nat} {mark small : Char} (h : Separated vs cs)
    (hvs : ∀ v ∈ vs, v < 16)
    (hmark : mark ≠ '_' ∧ mark ∉ ['l', 'L', 'u', 'U'] ∧ mark.toLower = small) :
    (∀ c ∈ ('0' :: mark :: cs).filter (· != '_'), c ∉ ['l', 'L', 'u', 'U']) ∧
      Java.plainDigits ('0' :: mark :: cs) = '0' :: small :: vs.map Nat.digitChar := by
  obtain ⟨hplain, hdigits⟩ := h.plain hvs
  obtain ⟨hne, hsuffix, hsmall⟩ := hmark
  have hfilter : ('0' :: mark :: cs).filter (· != '_') = '0' :: mark :: cs.filter (· != '_') := by
    simp [hne]
  constructor
  · rw [hfilter]
    exact List.forall_mem_cons.mpr ⟨by decide, List.forall_mem_cons.mpr ⟨hsuffix, hdigits⟩⟩
  · rw [Java.plainDigits, hfilter, List.map_cons, List.map_cons, hsmall, ← hplain]
    rfl

/-- Decimal digits are not taken for octal ones, since no zero stands before them. -/
theorem numeral?_map_digitChar {vs : List Nat} (hdigits : ∀ v ∈ vs, v < 10)
    (hlead : vs.head? = some 0 → vs = [0]) :
    numeral? (vs.map Nat.digitChar) = digits? 10 (vs.map Nat.digitChar) := by
  refine Java.numeral?_eq_decimal fun d ds heq => ?_
  obtain ⟨v, vs, rfl, hzero, hrest⟩ := List.map_eq_cons_iff.mp heq
  have hzeros : ∀ v < 10, Nat.digitChar v = '0' → v = 0 := by decide
  obtain rfl := hzeros v (hdigits v List.mem_cons_self) hzero
  rw [(List.cons.inj (hlead rfl)).2] at hrest
  cases hrest

/-- Without separators a literal has no suffix left, and it is read in the base that it is written
in. -/
theorem numeral?_of_spells (h : Spells n cs) :
    (∀ c ∈ cs.filter (· != '_'), c ∉ ['l', 'L', 'u', 'U']) ∧
      numeral? (Java.plainDigits cs) = if n < 2 ^ 63 then some (n : Int) else none := by
  cases h with
  | @decimal vs _ hs hdigits hlead hvalue =>
    obtain ⟨hplain, hsuffix⟩ := hs.plain fun v hv => (hdigits v hv).trans (by omega)
    refine ⟨hsuffix, ?_⟩
    rw [hplain, numeral?_map_digitChar hdigits hlead]
    exact digits?_map_digitChar (by omega) hdigits hs.ne_nil hvalue
  | @octal v vs _ hs hdigits hvalue =>
    have hall : ∀ w ∈ 0 :: v :: vs, w < 16 :=
      List.forall_mem_cons.mpr ⟨by omega, fun w hw => (hdigits w hw).trans (by omega)⟩
    obtain ⟨hplain, hsuffix⟩ := hs.plain hall
    refine ⟨hsuffix, ?_⟩
    have hoctal : ∀ c ∈ (v :: vs).map Nat.digitChar, c.isDigit = true := by
      have hchars : ∀ w < 8, (Nat.digitChar w).isDigit = true := by decide
      intro c hc
      obtain ⟨w, hw, rfl⟩ := List.mem_map.mp hc
      exact hchars w (hdigits w hw)
    rw [hplain, List.map_cons, List.map_cons]
    refine (Java.numeral?_eq_octal hoctal).trans ?_
    exact digits?_map_digitChar (by omega) hdigits (List.cons_ne_nil v vs) hvalue
  | @binary vs ds mark hmark hs hdigits hvalue =>
    have hletter : mark ≠ '_' ∧ mark ∉ ['l', 'L', 'u', 'U'] ∧ mark.toLower = 'b' := by
      simp only [List.mem_cons, List.not_mem_nil, or_false] at hmark
      rcases hmark with rfl | rfl <;> decide
    obtain ⟨hsuffix, hplain⟩ :=
      hs.plain_marked (fun v hv => (hdigits v hv).trans (by omega)) hletter
    refine ⟨hsuffix, ?_⟩
    rw [hplain]
    exact digits?_map_digitChar (by omega) hdigits hs.ne_nil hvalue
  | @hexadecimal vs ds mark hmark hs hdigits hvalue =>
    have hletter : mark ≠ '_' ∧ mark ∉ ['l', 'L', 'u', 'U'] ∧ mark.toLower = 'x' := by
      simp only [List.mem_cons, List.not_mem_nil, or_false] at hmark
      rcases hmark with rfl | rfl <;> decide
    obtain ⟨hsuffix, hplain⟩ := hs.plain_marked hdigits hletter
    refine ⟨hsuffix, ?_⟩
    rw [hplain]
    exact digits?_map_digitChar le_rfl hdigits hs.ne_nil hvalue

/-- **An integer literal is read as the number that it writes**, in whichever way it is written, if
the number has 63 bits. Otherwise nothing is read. -/
theorem integer?_of_spells (h : Spells n cs) (hsuffix : ∀ c ∈ suffix, c ∈ ['l', 'L', 'u', 'U']) :
    integer? (String.ofList (cs ++ suffix)) = if n < 2 ^ 63 then some (n : Int) else none := by
  obtain ⟨hcs, hread⟩ := numeral?_of_spells h
  rw [integer?_append_suffix hcs hsuffix, hread]

/-- The greatest number that fits, with capital and small letters and separators of different
lengths. -/
theorem integer?_of_spells_greatest :
    ∃ cs, "0X7_fFF__ffffFFFF_fFfFuL" = String.ofList (cs ++ ['u', 'L']) ∧ Spells (2 ^ 63 - 1) cs ∧
      integer? (String.ofList (cs ++ ['u', 'L'])) = some (2 ^ 63 - 1 : Nat) := by
  have hdigits : Separated [7, 15, 15, 15, 15, 15, 15, 15, 15, 15, 15, 15, 15, 15, 15, 15]
      ['7', '_', 'f', 'F', 'F', '_', '_', 'f', 'f', 'f', 'f', 'F', 'F', 'F', 'F', '_',
        'f', 'F', 'f', 'F'] :=
    .next (.inl rfl) 1 <| .next (.inl rfl) 0 <| .next (.inr rfl) 0 <| .next (.inr rfl) 2 <|
    .next (.inl rfl) 0 <| .next (.inl rfl) 0 <| .next (.inl rfl) 0 <| .next (.inl rfl) 0 <|
    .next (.inr rfl) 0 <| .next (.inr rfl) 0 <| .next (.inr rfl) 0 <| .next (.inr rfl) 1 <|
    .next (.inl rfl) 0 <| .next (.inr rfl) 0 <| .next (.inl rfl) 0 <| .last (.inr rfl)
  have hspells := Spells.hexadecimal (n := 2 ^ 63 - 1) 'X' (by simp) hdigits (by decide) (by decide)
  have hsuffix : ∀ c ∈ ['u', 'L'], c ∈ ['l', 'L', 'u', 'U'] := by simp
  exact ⟨_, rfl, hspells, (integer?_of_spells hspells hsuffix).trans (if_pos (by decide))⟩

end Literals

end AdLint.Literal
