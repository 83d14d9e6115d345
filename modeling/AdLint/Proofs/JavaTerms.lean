import AdLint.Java.Meaning
import AdLint.Proofs.Deviation
import AdLint.Proofs.ImportedNames
import AdLint.Proofs.QuotedTexts

/-!
# Java terms

The terms are the expressions that are made of integer literals, text literals, references,
parentheses and `+`. `Writes` says which nodes write them, and `Escaped` what the characters of a
text literal stand for. An integer is read as the number that its digits write. A text is read with
the escapes of line feeds, tabs, quotes and backslashes resolved. The other escapes are taken for
the characters after the backslash, so a text deviates once for each of them.

## Main definitions

* `Term`: an expression of integers, texts, references, parentheses and `+`
* `IntLiteral`: what the digits of an integer literal write
* `Escaped`: what the characters between two quotes stand for
* `Writes`: the term that a node writes

## Main results

* `integer?_eq_of_intLiteral`: an integer literal is read as the number it writes
* `deviates_unescape`: a text literal is read up to its unresolved escapes
* `expr_of_plus`, `expr_of_group`: how the expression of a node is made from those of its parts
-/

namespace AdLint.Java

/-! ## Terms and the nodes that write them -/

/-- An expression of integers, texts, references, parentheses and `+`. -/
inductive Term where
  /-- An integer literal, by the number that its digits write. -/
  | int (digits : Nat)
  /-- A text literal, by the characters between its quotes. -/
  | text (written : List Char)
  | reference (path : String)
  | group (inner : Term)
  | plus (left right : Term)

/-- The notations of integers other than the decimal one. -/
inductive Radix where
  | binary
  | octal
  | hexadecimal
  deriving DecidableEq

namespace Radix

/-- The number of digits. -/
def base : Radix → Nat
  | binary => 2
  | octal => 8
  | hexadecimal => 16

/-- What stands before the digits. -/
def mark : Radix → List Char
  | binary => ['0', 'b']
  | octal => ['0']
  | hexadecimal => ['0', 'x']

end Radix

/-- The characters of a number without separators, capital letters as small ones. -/
def plainDigits (written : List Char) : List Char := (written.filter (· != '_')).map Char.toLower

/-- An integer literal and the number that its digits write. A decimal number has 31 bits and no
zeros before it, and other numbers have 32 bits. -/
inductive IntLiteral (written : List Char) (n : Nat) : Prop
  | decimal (hdigits : plainDigits written = Nat.toDigits 10 n) (hn : n < 2 ^ 31)
  | based (r : Radix) (zeros : Nat)
      (hdigits : plainDigits written =
        r.mark ++ (List.replicate zeros '0' ++ Nat.toDigits r.base n))
      (hn : n < 2 ^ 32)

theorem IntLiteral.lt {written : List Char} {n : Nat} (h : IntLiteral written n) : n < 2 ^ 32 := by
  cases h with
  | decimal _ hn => omega
  | based _ _ _ hn => exact hn

/-- The character that a backslash and another character stand for. -/
def simpleEscape? : Char → Option Char
  | 'b' => some '\x08'
  | 's' => some ' '
  | 't' => some '\t'
  | 'n' => some '\n'
  | 'f' => some '\x0c'
  | 'r' => some '\r'
  | '"' => some '"'
  | '\'' => some '\''
  | '\\' => some '\\'
  | _ => none

/-- The characters between the quotes of a text literal, the text that they stand for, and the
number of escapes in it that are not resolved. An octal escape takes as many digits as it can. -/
inductive Escaped : List Char → List Char → Nat → Prop
  | nil : Escaped [] [] 0
  | plain {c : Char} {cs ys : List Char} {k : Nat} (hquote : c ≠ '"') (hslash : c ≠ '\\')
      (h : Escaped cs ys k) : Escaped (c :: cs) (c :: ys) k
  | simple {c y : Char} {cs ys : List Char} {k : Nat} (hc : simpleEscape? c = some y)
      (h : Escaped cs ys k) :
      Escaped ('\\' :: c :: cs) (y :: ys) ((if c ∈ ['b', 's', 'f', 'r'] then 1 else 0) + k)
  | octal {v zeros : Nat} {cs ys : List Char} {k : Nat} (hv : v < 256)
      (hlength : (List.replicate zeros '0' ++ Nat.toDigits 8 v).length ≤ 3)
      (hnext : ∀ d < 8, cs.head? = some (Nat.digitChar d) →
        (List.replicate zeros '0' ++ Nat.toDigits 8 v).length = 3 ∨ 32 ≤ v)
      (h : Escaped cs ys k) :
      Escaped ('\\' :: (List.replicate zeros '0' ++ Nat.toDigits 8 v) ++ cs)
        (Char.ofNat v :: ys) (1 + k)

/-- The node writes the term. Comments in parentheses do not count. -/
inductive Writes (s : Source) : Node → Term → Prop
  | int {t : Node} {n : Nat} (hkind : t.kind = .integer)
      (hwritten : IntLiteral (s.slice t.span).toList n) : Writes s t (.int n)
  | text {t : Node} {cs : List Char} (hkind : t.kind = .text)
      (hwritten : (s.slice t.span).toList = '"' :: cs ++ ['"']) : Writes s t (.text cs)
  | reference {t : Node} (hkind : t.kind = .name) :
      Writes s t (.reference (Text.compact (s.slice t.span)))
  | group {t inner : Node} {e : Term} (hkind : t.kind = .parenthesized)
      (hinner : t.namedParts.filter (fun part => !part.isComment) = [inner])
      (h : Writes s inner e) : Writes s t (.group e)
  | plus {t operator left right : Node} {l r : Term} (hkind : t.kind = .binary)
      (hoperator : t.part? .operator = some operator) (hplus : s.slice operator.span = "+")
      (hleft : t.part? .left = some left) (hright : t.part? .right = some right)
      (hl : Writes s left l) (hr : Writes s right r) : Writes s t (.plus l r)

/-! ## How integers are read -/

section Integers

theorem digit?_digitChar {v : Nat} (h : v < 16) : Literal.digit? (Nat.digitChar v) = some v := by
  have hall : ∀ v < 16, Literal.digit? (Nat.digitChar v) = some v := by decide
  exact hall v h

theorem digitsFrom?_append (b n : Nat) (x y : List Char) :
    Literal.digitsFrom? b n (x ++ y) =
      (Literal.digitsFrom? b n x).bind fun m => Literal.digitsFrom? b m y := by
  induction x generalizing n with
  | nil => rfl
  | cons c cs ih =>
    simp only [List.cons_append, Literal.digitsFrom?]
    split
    · split
      · exact ih _
      · rfl
    · rfl

/-- The digits of a number, with any zeros before them, are read as the number. -/
theorem digitsFrom?_toDigits {b : Nat} (hbase : 1 < b) (hle : b ≤ 16) (n zeros : Nat) :
    Literal.digitsFrom? b 0 (List.replicate zeros '0' ++ Nat.toDigits b n) = some n := by
  have hdigit : ∀ m v, v < b →
      Literal.digitsFrom? b m [Nat.digitChar v] = some (m * b + v) := by
    intro m v hv
    simp [Literal.digitsFrom?, digit?_digitChar (show v < 16 by omega), hv]
  have hdigits : Literal.digitsFrom? b 0 (Nat.toDigits b n) = some n := by
    induction n using Nat.strongRecOn with
    | ind n ih =>
      by_cases hlt : n < b
      · rw [Nat.toDigits_of_lt_base hlt, hdigit 0 n hlt, Nat.zero_mul, Nat.zero_add]
      · -- the last digit comes after the number without it
        have hquotient : n / b < n := Nat.div_lt_self (by omega) hbase
        rw [Nat.toDigits_of_base_le hbase (by omega), digitsFrom?_append, ih _ hquotient]
        rw [Option.bind_some, hdigit _ _ (Nat.mod_lt n (by omega)), Nat.div_add_mod']
  induction zeros with
  | zero => exact hdigits
  | succ zeros ih =>
    rw [List.replicate_succ, List.cons_append, ← List.singleton_append, digitsFrom?_append]
    have hzero := hdigit 0 0 (by omega)
    rw [Nat.zero_mul, Nat.zero_add] at hzero
    rw [show ['0'] = [Nat.digitChar 0] from rfl, hzero]
    exact ih

theorem digits?_toDigits {b : Nat} (hbase : 1 < b) (hle : b ≤ 16) {n : Nat} (hn : n < 2 ^ 32)
    (zeros : Nat) :
    Literal.digits? b (List.replicate zeros '0' ++ Nat.toDigits b n) = some (n : Int) := by
  have hne : (List.replicate zeros '0' ++ Nat.toDigits b n).isEmpty = false := by
    simp [Nat.toDigits_ne_nil]
  have hmax : n ≤ Literal.maxInt64 := by
    have : Literal.maxInt64 = 2 ^ 63 - 1 := rfl
    omega
  rw [Literal.digits?, hne, digitsFrom?_toDigits hbase hle]
  simp [hmax]

theorem exists_of_mem_toDigits {b n : Nat} (hbase : 1 < b) {c : Char} (hc : c ∈ Nat.toDigits b n) :
    ∃ v < b, c = Nat.digitChar v := by
  induction n using Nat.strongRecOn with
  | ind n ih =>
    by_cases hlt : n < b
    · rw [Nat.toDigits_of_lt_base hlt] at hc
      exact ⟨n, hlt, List.mem_singleton.mp hc⟩
    · rw [Nat.toDigits_of_base_le hbase (by omega)] at hc
      rcases List.mem_append.mp hc with hc | hc
      · exact ih _ (Nat.div_lt_self (by omega) hbase) hc
      · exact ⟨n % b, Nat.mod_lt n (by omega), List.mem_singleton.mp hc⟩

/-- No digit of a base up to 16 is the suffix of another type. -/
theorem dropEndWhile_suffix {cs x : List Char} {b n : Nat} (hbase : 1 < b) (hle : b ≤ 16)
    (h : cs.map Char.toLower = x ++ Nat.toDigits b n) :
    Text.dropEndWhile (fun c => ['l', 'L', 'u', 'U'].contains c) cs = cs := by
  refine Text.dropEndWhile_eq_self ?_
  intro c hc
  have hlast : (Nat.toDigits b n).getLast? = some c.toLower := by
    rw [← List.getLast?_append_of_ne_nil x Nat.toDigits_ne_nil, ← h, List.getLast?_map, hc]
    rfl
  obtain ⟨v, hv, hdigit⟩ := exists_of_mem_toDigits hbase (List.mem_of_getLast? hlast)
  have hdigits : ∀ v < 16, Nat.digitChar v ≠ 'l' ∧ Nat.digitChar v ≠ 'u' := by decide
  by_contra hsuffix
  simp only [Bool.not_eq_false, List.contains_iff_mem, List.mem_cons, List.not_mem_nil,
    or_false] at hsuffix
  have hdigits := hdigits v (by omega)
  rw [← hdigit] at hdigits
  rcases hsuffix with rfl | rfl | rfl | rfl
  · exact hdigits.1 rfl
  · exact hdigits.1 rfl
  · exact hdigits.2 rfl
  · exact hdigits.2 rfl

theorem integer?_eq_numeral? {written : String} {x : List Char} {b n : Nat} (hbase : 1 < b)
    (hle : b ≤ 16) (h : plainDigits written.toList = x ++ Nat.toDigits b n) :
    Literal.integer? written = Literal.numeral? (x ++ Nat.toDigits b n) := by
  rw [← h, Literal.integer?]
  simp only [dropEndWhile_suffix hbase hle h]
  rfl

/-- Digits are decimal unless another one follows a zero at their start. -/
theorem numeral?_eq_decimal {cs : List Char} (h : ∀ d ds, cs ≠ '0' :: d :: ds) :
    Literal.numeral? cs = Literal.digits? 10 cs := by
  unfold Literal.numeral?
  split
  · exact absurd rfl (h _ _)
  · exact absurd rfl (h _ _)
  · exact absurd rfl (h _ _)
  · rfl

/-- The zero that marks an octal number is followed by a digit, and not by a letter. -/
theorem numeral?_eq_octal {d : Char} {ds : List Char} (h : ∀ c ∈ d :: ds, c.isDigit = true) :
    Literal.numeral? ('0' :: d :: ds) = Literal.digits? 8 (d :: ds) := by
  unfold Literal.numeral?
  split
  · next heq =>
    cases heq
    exact absurd (h 'x' List.mem_cons_self) (by decide)
  · next heq =>
    cases heq
    exact absurd (h 'b' List.mem_cons_self) (by decide)
  · next heq =>
    cases heq
    rw [if_pos (List.all_eq_true.mpr h)]
  · next hnone => exact absurd rfl (hnone d ds)

theorem numeral?_decimal {n : Nat} (hn : n < 2 ^ 32) :
    Literal.numeral? (Nat.toDigits 10 n) = some (n : Int) := by
  have hlong : ∀ d ds, Nat.toDigits 10 n ≠ '0' :: d :: ds := by
    intro d ds heq
    rcases Nat.eq_zero_or_pos n with rfl | hpos
    · simp at heq
    · exact Json.head?_toDigits_ne_zero n hpos (by rw [heq, List.head?_cons])
  rw [numeral?_eq_decimal hlong]
  exact digits?_toDigits (by omega) (by omega) hn 0

theorem isDigit_octal (n zeros : Nat) :
    ∀ c ∈ List.replicate zeros '0' ++ Nat.toDigits 8 n, c.isDigit = true := by
  intro c hc
  rcases List.mem_append.mp hc with hc | hc
  · rw [List.eq_of_mem_replicate hc]
    rfl
  · exact Nat.isDigit_of_mem_toDigits (by omega) (by omega) hc

theorem numeral?_octal {n : Nat} (hn : n < 2 ^ 32) (zeros : Nat) :
    Literal.numeral? ('0' :: (List.replicate zeros '0' ++ Nat.toDigits 8 n)) = some (n : Int) := by
  have hdigit := isDigit_octal n zeros
  have hvalue := digits?_toDigits (b := 8) (by omega) (by omega) hn zeros
  obtain ⟨d, ds, hds⟩ : ∃ d ds, List.replicate zeros '0' ++ Nat.toDigits 8 n = d :: ds :=
    List.exists_cons_of_ne_nil (List.append_ne_nil_of_right_ne_nil _ Nat.toDigits_ne_nil)
  rw [hds] at hdigit hvalue ⊢
  rw [numeral?_eq_octal hdigit, hvalue]

/-- **An integer literal is read as the number that it writes.** -/
theorem integer?_eq_of_intLiteral {written : String} {n : Nat} (h : IntLiteral written.toList n) :
    Literal.integer? written = some (n : Int) := by
  cases h with
  | decimal hdigits hn =>
    rw [integer?_eq_numeral? (x := []) (by omega) (by omega) hdigits]
    exact numeral?_decimal (by omega)
  | based r zeros hdigits hn =>
    rw [← List.append_assoc] at hdigits
    have hbase : 1 < r.base ∧ r.base ≤ 16 := by cases r <;> decide
    rw [integer?_eq_numeral? hbase.1 hbase.2 hdigits, List.append_assoc]
    cases r with
    | binary => exact digits?_toDigits (by omega) (by omega) hn zeros
    | octal => exact numeral?_octal hn zeros
    | hexadecimal => exact digits?_toDigits (by omega) (by omega) hn zeros

end Integers

/-! ## How texts are read -/

section Texts

variable {c : Char} {cs ys : List Char} {k : Nat}

/-- Digits are not resolved. -/
theorem unescape_digits_append {ds : List Char} (hds : ∀ d ∈ ds, d.isDigit = true) :
    Literal.unescape (ds ++ cs) = ds ++ Literal.unescape cs := by
  induction ds with
  | nil => rfl
  | cons d ds ih =>
    have hd : d ≠ '\\' := by
      rintro rfl
      exact absurd (hds '\\' List.mem_cons_self) (by decide)
    rw [List.cons_append, Literal.unescape_plain hd,
      ih fun x hx => hds x (List.mem_cons_of_mem d hx)]
    rfl

theorem unescape_octal {ds : List Char} (hne : ds ≠ []) (hds : ∀ d ∈ ds, d.isDigit = true) :
    Literal.unescape ('\\' :: ds ++ cs) = ds ++ Literal.unescape cs := by
  cases ds with
  | nil => exact absurd rfl hne
  | cons d ds =>
    have hd := hds d List.mem_cons_self
    have hn : d ≠ 'n' := by
      rintro rfl
      exact absurd hd (by decide)
    have ht : d ≠ 't' := by
      rintro rfl
      exact absurd hd (by decide)
    show Literal.unescape ('\\' :: d :: (ds ++ cs)) = d :: (ds ++ Literal.unescape cs)
    rw [Literal.unescape, unescape_digits_append fun x hx => hds x (List.mem_cons_of_mem d hx)]
    simp [hn, ht]

theorem deviates_simple {y : Char} (hc : simpleEscape? c = some y) :
    Deviates [if c == 'n' then '\n' else if c == 't' then '\t' else c] [y]
      (if c ∈ ['b', 's', 'f', 'r'] then 1 else 0) := by
  unfold simpleEscape? at hc
  split at hc <;> cases hc <;> exact ⟨by decide, by decide, by decide⟩

/-- The digits of an octal escape are not the character that it stands for. -/
theorem deviates_octal (v zeros : Nat) :
    Deviates (List.replicate zeros '0' ++ Nat.toDigits 8 v) [Char.ofNat v] 1 := by
  have hdigit := isDigit_octal v zeros
  have hpos := Nat.length_toDigits_pos (b := 8) (n := v)
  refine .of_ne ?_ ?_ ?_
  · rw [countP_of_digits hdigit, List.length_append]
    exact List.countP_le_length.trans (by rw [List.length_singleton]; omega)
  · rw [List.count_eq_zero.mpr (not_mem_of_digits hdigit)]
    exact Nat.zero_le _
  · intro heq
    -- there is one digit only, and it is not the control character of its value
    have hlength := congrArg List.length heq
    rw [List.length_append, List.length_replicate, List.length_singleton] at hlength
    obtain rfl : zeros = 0 := by omega
    have hv : v < 8 := by
      have :=
        (Nat.length_toDigits_le_iff (n := v) (show 1 < 8 by omega) (show 0 < 1 by omega)).mp
        (by omega)
      omega
    rw [List.replicate_zero, List.nil_append, Nat.toDigits_of_lt_base hv] at heq
    have hdigits : ∀ v < 8, Nat.digitChar v ≠ Char.ofNat v := by decide
    exact hdigits v hv (List.cons.inj heq).1

/-- **The text between two quotes is read up to the escapes that are not resolved.** -/
theorem deviates_unescape (h : Escaped cs ys k) : Deviates (Literal.unescape cs) ys k := by
  induction h with
  | nil => exact .refl []
  | @plain c cs ys k _ hslash _ ih =>
    rw [Literal.unescape_plain hslash]
    have hsum := (Deviates.refl [c]).append ih
    rwa [Nat.zero_add] at hsum
  | simple hc _ ih =>
    rw [Literal.unescape]
    exact (deviates_simple hc).append ih
  | @octal v zeros cs ys k _ _ _ _ ih =>
    have hne := List.append_ne_nil_of_right_ne_nil (List.replicate zeros '0')
      (Nat.toDigits_ne_nil (n := v) (b := 8))
    rw [unescape_octal hne (isDigit_octal v zeros)]
    exact (deviates_octal v zeros).append ih

/-- The quotes are dropped. -/
theorem unquote_of_escaped {written : String} (hwritten : written.toList = '"' :: cs ++ ['"'])
    (h : Escaped cs ys k) : Literal.unquote written = String.ofList (Literal.unescape cs) := by
  have hhead : cs.head? ≠ some '"' := by
    cases h with
    | nil => simp
    | plain hquote _ _ => simpa using hquote
    | simple _ _ => simp
    | octal _ _ _ _ => simp
  rw [Literal.unquote, hwritten, List.cons_append, Literal.inner_between_quotes hhead]

end Texts

/-! ## The expressions of nodes -/

section Expressions

variable {s : Source} {t : Node}

theorem foldParts_eq_map {κ α : Type} (f : κ → Span → List (Tree κ × α) → α) (ts : List (Tree κ)) :
    Tree.foldParts f ts = ts.map fun t => (t, t.fold f) := by
  induction ts with
  | nil => rfl
  | cons t ts ih => rw [Tree.foldParts, ih, List.map_cons]

theorem expr_eq (s : Source) (t : Node) :
    expr s t = exprOf s t.kind t.span (t.parts.map fun part => (part, expr s part)) := by
  cases t with
  | node kind role span parts =>
    rw [expr, Tree.fold, foldParts_eq_map]
    rfl

theorem inRole?_map (s : Source) (parts : List Node) (role : Role) :
    Parts.inRole? (parts.map fun part => (part, expr s part)) role =
      (parts.find? fun part => part.role == role).map fun part => (part, expr s part) := by
  rw [Parts.inRole?, List.find?_map]
  rfl

theorem named_exprs_map (s : Source) (t : Node) :
    (Parts.named (t.parts.map fun part => (part, expr s part))).exprs =
      t.namedParts.map (expr s) := by
  rw [Parts.named, Parts.exprs, List.filter_map, List.map_map]
  rfl

theorem expr_of_integer {n : Nat} (hkind : t.kind = .integer)
    (hwritten : IntLiteral (s.slice t.span).toList n) : expr s t = .int n := by
  rw [expr_eq, hkind, exprOf, integer?_eq_of_intLiteral hwritten]
  rfl

theorem expr_of_text (hkind : t.kind = .text) :
    expr s t = .text (Literal.unquote (s.slice t.span)) := by
  rw [expr_eq, hkind]
  rfl

theorem expr_of_name (hkind : t.kind = .name) :
    expr s t = .reference (Text.compact (s.slice t.span)) := by
  rw [expr_eq, hkind]
  rfl

/-- The expression of a sum holds the operands of both sides. -/
theorem expr_of_plus {operator left right : Node} (hkind : t.kind = .binary)
    (hoperator : t.part? .operator = some operator) (hplus : s.slice operator.span = "+")
    (hleft : t.part? .left = some left) (hright : t.part? .right = some right) :
    expr s t = .concat ((expr s left).operands ++ (expr s right).operands) := by
  unfold Tree.part? at hoperator hleft hright
  rw [expr_eq, hkind, exprOf, inRole?_map, inRole?_map, inRole?_map, hoperator, hleft, hright]
  simp [hplus]

/-- The expression of parentheses is what stands in them, unless a comment stands first. -/
theorem expr_of_group {inner : Node} (hkind : t.kind = .parenthesized)
    (hinner : t.namedParts.filter (fun part => !part.isComment) = [inner]) :
    expr s t = expr s inner ∨ ∃ written, expr s t = .other written := by
  have hexpr : expr s t = (t.namedParts.map (expr s)).headD (.other (s.slice t.span)) := by
    rw [expr_eq, hkind, exprOf, named_exprs_map]
  cases hparts : t.namedParts with
  | nil => simp [hparts] at hinner
  | cons first rest =>
    rw [hparts, List.map_cons, List.headD_cons] at hexpr
    rw [hparts] at hinner
    cases hcomment : first.isComment with
    | true =>
      right
      have hfirst : first.kind = .comment := by
        simpa [Tree.isComment, NodeKind.isComment] using hcomment
      refine ⟨s.slice first.span, ?_⟩
      rw [hexpr, expr_eq, hfirst]
      rfl
    | false =>
      left
      rw [List.filter_cons_of_pos (by simp [hcomment])] at hinner
      rw [hexpr, (List.cons.inj hinner).1]

end Expressions

end AdLint.Java
