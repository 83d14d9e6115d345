import AdLint.Proofs.JsonRoundTrip
import Mathlib.Tactic.Linarith

/-!
# Texts that deviate from one another

A text is put together from pieces, and so is the text that it should be. Some pieces are right. The
others deviate, and in all of them the difference goes the same way: a deviating piece has at least
as many characters other than a minus as the right one, and at most as many minus signs. So
differences never cancel out, and the whole text is right if and only if no piece deviates.

Numbers that are written one after the other instead of being added are such a piece. Two numbers of
`l` and `m` digits give `l + m` digits, and their sum has no more than that. The digits are never
those of the sum.

## Main definitions

* `Deviates x y k`: the text `x` stands for `y`, with `k` deviations
* `wrap32`: an integer reduced to 32 bits
* `Summed x n k`: the digits `x` of summands one after the other, whose sum is `n`

## Main results

* `Deviates.append`: deviations add up
* `Summed.deviates`: the digits of summands deviate from the digits of the sum
-/

namespace AdLint

/-! ## Deviations add up -/

/-- A text `x` stands for `y` with `k` deviations: it is right if there is none, and otherwise it
differs by too many characters or by too few minus signs. -/
structure Deviates (x y : List Char) (k : Nat) : Prop where
  others : y.countP (· != '-') ≤ x.countP (· != '-')
  minus : x.count '-' ≤ y.count '-'
  eq_iff : x = y ↔ k = 0

namespace Deviates

variable {x y x' y' : List Char} {k l : Nat}

protected theorem refl (x : List Char) : Deviates x x 0 := ⟨le_rfl, le_rfl, by simp⟩

/-- A text that is not the right one, and is not shorter apart from minus signs. -/
theorem of_ne (hothers : y.countP (· != '-') ≤ x.countP (· != '-'))
    (hminus : x.count '-' ≤ y.count '-')
    (hne : x ≠ y) : Deviates x y (k + 1) :=
  ⟨hothers, hminus, by simp [hne]⟩

/-- **Deviations add up.** If the whole text were right, all counts would agree, so the pieces would
be equally long and right as well. -/
theorem append (h : Deviates x y k) (h' : Deviates x' y' l) :
    Deviates (x ++ x') (y ++ y') (k + l) := by
  have hlength : ∀ cs : List Char, cs.length = cs.count '-' + cs.countP (· != '-') := by
    intro cs
    rw [List.length_eq_countP_add_countP (· == '-'), List.count]
    simp only [Bool.not_eq_true, Bool.decide_eq_false, bne]
  constructor
  · rw [List.countP_append, List.countP_append]
    exact Nat.add_le_add h.others h'.others
  · rw [List.count_append, List.count_append]
    exact Nat.add_le_add h.minus h'.minus
  · constructor
    · intro heq
      have hothers := congrArg (List.countP (· != '-')) heq
      have hminus := congrArg (List.count '-') heq
      rw [List.countP_append, List.countP_append] at hothers
      rw [List.count_append, List.count_append] at hminus
      have hlen : x.length = y.length := by
        have := h.others
        have := h'.others
        have := h.minus
        have := h'.minus
        rw [hlength x, hlength y]
        omega
      obtain ⟨hx, hx'⟩ := List.append_inj heq hlen
      rw [h.eq_iff.mp hx, h'.eq_iff.mp hx']
    · intro hzero
      rw [h.eq_iff.mpr (by omega), h'.eq_iff.mpr (by omega)]

end Deviates

/-! ## Digits -/

section Digits

variable {x y : List Char} {n : Nat}

/-- The number that digits write is less than the power of ten of their count. -/
theorem ofDigitChars_lt (hx : ∀ c ∈ x, c.isDigit = true) :
    Nat.ofDigitChars 10 x 0 < 10 ^ x.length := by
  induction x with
  | nil => simp
  | cons c cs ih =>
    have hcs := ih fun d hd => hx d (List.mem_cons_of_mem c hd)
    have hc : c.toNat - '0'.toNat ≤ 9 := by
      have hdigit := Char.isDigit_iff_toNat.mp (hx c List.mem_cons_self)
      have hnine : '9'.toNat = 57 := rfl
      have hzero : '0'.toNat = 48 := rfl
      omega
    rw [Nat.ofDigitChars_cons, Nat.ofDigitChars_eq_ofDigitChars_zero, List.length_cons,
      Nat.pow_succ]
    nlinarith

theorem ofDigitChars_append_eq (x y : List Char) :
    Nat.ofDigitChars 10 (x ++ y) 0 =
      10 ^ y.length * Nat.ofDigitChars 10 x 0 + Nat.ofDigitChars 10 y 0 := by
  rw [Nat.ofDigitChars_append, Nat.ofDigitChars_eq_ofDigitChars_zero]

/-- Digits that write zero begin with a zero. -/
theorem head?_of_ofDigitChars_eq_zero (hx : ∀ c ∈ x, c.isDigit = true) (hne : x ≠ [])
    (hzero : Nat.ofDigitChars 10 x 0 = 0) : x.head? = some '0' := by
  cases x with
  | nil => exact absurd rfl hne
  | cons c cs =>
    rw [Nat.ofDigitChars_cons, Nat.ofDigitChars_eq_ofDigitChars_zero, Nat.mul_zero,
      Nat.zero_add] at hzero
    have hdigit := Char.isDigit_iff_toNat.mp (hx c List.mem_cons_self)
    have hpow : 0 < 10 ^ cs.length := Nat.pow_pos (by omega)
    have hc : c.toNat - '0'.toNat = 0 := by
      by_contra hpos
      have := Nat.mul_pos hpow (Nat.pos_of_ne_zero hpos)
      omega
    rw [List.head?_cons, Char.toNat_inj.mp (show c.toNat = '0'.toNat by omega)]

theorem isDigit_of_mem_decimal {c : Char} (hc : c ∈ Nat.toDigits 10 n) : c.isDigit = true :=
  Nat.isDigit_of_mem_toDigits (by omega) (by omega) hc

theorem not_mem_of_digits (hx : ∀ c ∈ x, c.isDigit = true) : '-' ∉ x :=
  fun hmem => absurd (hx '-' hmem) (by decide)

theorem countP_of_digits (hx : ∀ c ∈ x, c.isDigit = true) : x.countP (· != '-') = x.length := by
  refine List.countP_eq_length.mpr ?_
  intro c hc
  have hminus : c ≠ '-' := fun h => not_mem_of_digits hx (h ▸ hc)
  simpa using hminus

/-- An integer as it is shown. -/
theorem toList_toString_int (a : Int) :
    (toString a).toList =
      if 0 ≤ a then Nat.toDigits 10 a.natAbs else '-' :: Nat.toDigits 10 a.natAbs := by
  rw [Int.toString_eq_repr, Int.repr_eq_if]
  split
  · next h => rw [Nat.toList_repr, show a.toNat = a.natAbs by omega]
  · next h =>
    rw [String.toList_append, Nat.toList_repr, show (-a).toNat = a.natAbs by omega]
    rfl

/-- Digits alone show no negative integer. -/
theorem ne_toList_of_neg {a : Int} (hx : ∀ c ∈ x, c.isDigit = true) (ha : a < 0) :
    x ≠ (toString a).toList := by
  intro heq
  rw [toList_toString_int, if_neg (by omega)] at heq
  exact not_mem_of_digits hx (heq ▸ List.mem_cons_self)

/-- Digits that are as many as those of an integer, or more, and do not show it. -/
theorem deviates_of_digits {a : Int} {k : Nat} (hx : ∀ c ∈ x, c.isDigit = true)
    (hlength : a.natAbs < 10 ^ x.length) (hpos : x ≠ []) (hne : x ≠ (toString a).toList) :
    Deviates x (toString a).toList (k + 1) := by
  have hdigits : (Nat.toDigits 10 a.natAbs).length ≤ x.length :=
    (Nat.length_toDigits_le_iff (by omega) (List.length_pos_iff.mpr hpos)).mpr hlength
  refine .of_ne ?_ ?_ hne
  · rw [countP_of_digits hx, toList_toString_int]
    split
    · exact List.countP_le_length.trans hdigits
    · rw [List.countP_cons_of_neg (by simp)]
      exact List.countP_le_length.trans hdigits
  · rw [List.count_eq_zero.mpr (not_mem_of_digits hx)]
    exact Nat.zero_le _

end Digits

/-! ## Sums that are written out -/

/-- An integer reduced to 32 bits, as integer arithmetic does it. -/
@[irreducible] def wrap32 (n : Int) : Int := n.bmod (2 ^ 32)

theorem wrap32_eq_self {n : Nat} (h : n < 2 ^ 31) : wrap32 n = n := by
  rw [wrap32]
  exact Int.bmod_eq_of_le (by omega) (by omega)

theorem wrap32_add (m n : Int) : wrap32 (wrap32 m + wrap32 n) = wrap32 (m + n) := by
  rw [wrap32, wrap32, wrap32, wrap32, Int.bmod_add_bmod, Int.add_bmod_bmod]

/-- A number that takes all of 32 bits becomes negative. -/
theorem wrap32_neg {n : Nat} (hlo : 2 ^ 31 ≤ n) (hhi : n < 2 ^ 32) : wrap32 n < 0 := by
  have hwrap : wrap32 n = n - 2 ^ 32 := by
    rw [wrap32]
    refine (Int.bmod_eq_iff (by omega)).mpr ⟨by omega, by omega, ?_⟩
    exact ⟨-1, by omega⟩
  omega

theorem natAbs_wrap32_le (n : Int) : (wrap32 n).natAbs ≤ 2 ^ 31 := by
  have hle := Int.le_bmod (x := n) (m := 2 ^ 32) (by omega)
  have hlt := Int.bmod_lt (x := n) (m := 2 ^ 32) (by omega)
  unfold wrap32
  omega

/-- An integer of 32 bits has at most ten digits. -/
theorem natAbs_wrap32_lt {x : List Char} (hx : 10 ≤ x.length) (n : Int) :
    (wrap32 n).natAbs < 10 ^ x.length := by
  have hle := natAbs_wrap32_le n
  have hpow := Nat.pow_le_pow_right (show 0 < 10 by omega) hx
  omega

theorem ten_le_length_toDigits {n : Nat} (h : 2 ^ 31 ≤ n) : 10 ≤ (Nat.toDigits 10 n).length := by
  by_contra hshort
  have :=
    (Nat.length_toDigits_le_iff (n := n) (k := 9) (show 1 < 10 by omega) (by omega)).mp (by omega)
  omega

/-- More than ten digits show no integer of 32 bits. -/
theorem ne_toList_wrap32 {x : List Char} (hx : ∀ c ∈ x, c.isDigit = true) (hlong : 10 < x.length)
    (n : Int) : x ≠ (toString (wrap32 n)).toList := by
  by_cases hneg : wrap32 n < 0
  · exact ne_toList_of_neg hx hneg
  · intro heq
    rw [toList_toString_int, if_pos (by omega)] at heq
    have hle := natAbs_wrap32_le n
    have hlength := (Nat.length_toDigits_le_iff (show 1 < 10 by omega) (show 0 < 10 by omega)).mpr
      (show (wrap32 n).natAbs < 10 ^ 10 by omega)
    rw [← heq] at hlength
    omega

/-- The digits of summands one after the other, with the sum. Each addition deviates, and so does
each summand that is not a number of 31 bits. -/
inductive Summed : List Char → Nat → Nat → Prop
  | literal {n : Nat} (h : n < 2 ^ 32) : Summed (Nat.toDigits 10 n) n (if n < 2 ^ 31 then 0 else 1)
  | plus {x y : List Char} {m n k l : Nat} (hx : Summed x m k) (hy : Summed y n l) :
      Summed (x ++ y) (m + n) (k + l + 1)

namespace Summed

variable {x y : List Char} {m n k l : Nat}

theorem ne_nil (h : Summed x n k) : x ≠ [] := by
  induction h with
  | literal _ => exact Nat.toDigits_ne_nil
  | plus _ _ ih _ => simp [ih]

theorem isDigit (h : Summed x n k) : ∀ c ∈ x, c.isDigit = true := by
  induction h with
  | literal _ => exact fun c hc => isDigit_of_mem_decimal hc
  | plus _ _ ihx ihy =>
    intro c hc
    rcases List.mem_append.mp hc with hc | hc
    · exact ihx c hc
    · exact ihy c hc

/-- The digits write a number that is at least the sum. -/
theorem le_ofDigitChars (h : Summed x n k) : n ≤ Nat.ofDigitChars 10 x 0 := by
  induction h with
  | literal _ => rw [Nat.ofDigitChars_ten_toDigits]
  | @plus x y m n _ _ _ _ ihx ihy =>
    have hpow : 0 < 10 ^ y.length := Nat.pow_pos (by omega)
    rw [ofDigitChars_append_eq]
    exact Nat.add_le_add (ihx.trans (Nat.le_mul_of_pos_left _ hpow)) ihy

/-- The digits of two summands are not those of the sum. They would write it only if the first
summand were zero, and the digits of a sum do not begin with a zero that stands for nothing. -/
theorem append_ne_toDigits (hx : Summed x m k) (hy : Summed y n l) :
    x ++ y ≠ Nat.toDigits 10 (m + n) := by
  intro heq
  have hvalue := congrArg (fun cs => Nat.ofDigitChars 10 cs 0) heq
  simp only [ofDigitChars_append_eq, Nat.ofDigitChars_ten_toDigits] at hvalue
  have hfirst : Nat.ofDigitChars 10 x 0 = 0 := by
    have hten : 10 ≤ 10 ^ y.length := by
      have := Nat.pow_le_pow_right (show 0 < 10 by omega) (List.length_pos_iff.mpr hy.ne_nil)
      simpa using this
    have := Nat.mul_le_mul_right (Nat.ofDigitChars 10 x 0) hten
    have := hx.le_ofDigitChars
    have := hy.le_ofDigitChars
    omega
  have hhead : (Nat.toDigits 10 (m + n)).head? = some '0' := by
    rw [← heq, List.head?_append_of_ne_nil _ hx.ne_nil]
    exact head?_of_ofDigitChars_eq_zero hx.isDigit hx.ne_nil hfirst
  rcases Nat.eq_zero_or_pos (m + n) with hzero | hpos
  · have hlength := congrArg List.length heq
    rw [hzero, Nat.toDigits_zero, List.length_append, List.length_singleton] at hlength
    have := List.length_pos_iff.mpr hx.ne_nil
    have := List.length_pos_iff.mpr hy.ne_nil
    omega
  · exact Json.head?_toDigits_ne_zero (m + n) hpos hhead

/-- Two summands that do not have a sum of 31 bits have more than ten digits. -/
theorem ten_lt_length (hx : Summed x m k) (hy : Summed y n l) (h : 2 ^ 31 ≤ m + n) :
    10 < (x ++ y).length := by
  have hm := hx.le_ofDigitChars.trans_lt (ofDigitChars_lt hx.isDigit)
  have hn := hy.le_ofDigitChars.trans_lt (ofDigitChars_lt hy.isDigit)
  have hxpos := List.length_pos_iff.mpr hx.ne_nil
  have hypos := List.length_pos_iff.mpr hy.ne_nil
  rw [List.length_append]
  by_contra hshort
  -- then neither has more than nine, and twice the greatest number of nine digits has 31 bits
  have hxpow : 10 ^ x.length ≤ 10 ^ 9 := Nat.pow_le_pow_right (by omega) (by omega)
  have hypow : 10 ^ y.length ≤ 10 ^ 9 := Nat.pow_le_pow_right (by omega) (by omega)
  omega

/-- **The digits of summands deviate from the digits of the sum**, except where there is a single
number of 31 bits. -/
theorem deviates (h : Summed x n k) : Deviates x (toString (wrap32 n)).toList k := by
  cases h with
  | literal hn =>
    split
    · next hsmall =>
      rw [wrap32_eq_self hsmall, toList_toString_int, if_pos (by omega), Int.natAbs_natCast]
      exact .refl _
    · next hlarge =>
      -- ten digits, and a negative integer
      have hdigits : ∀ c ∈ Nat.toDigits 10 n, c.isDigit = true :=
        fun c hc => isDigit_of_mem_decimal hc
      refine deviates_of_digits hdigits ?_ Nat.toDigits_ne_nil ?_
      · exact natAbs_wrap32_lt (ten_le_length_toDigits (by omega)) n
      · exact ne_toList_of_neg hdigits (wrap32_neg (by omega) hn)
  | @plus x y m n k l hx hy =>
    have hsum := Summed.plus hx hy
    by_cases hsmall : m + n < 2 ^ 31
    · rw [wrap32_eq_self hsmall]
      refine deviates_of_digits hsum.isDigit ?_ hsum.ne_nil ?_
      · rw [Int.natAbs_natCast]
        exact hsum.le_ofDigitChars.trans_lt (ofDigitChars_lt hsum.isDigit)
      · rw [toList_toString_int, if_pos (by omega), Int.natAbs_natCast]
        exact append_ne_toDigits hx hy
    · -- the sum may come out as any integer of 32 bits, but there are too many digits for that
      have hlong := ten_lt_length hx hy (by omega)
      refine deviates_of_digits hsum.isDigit ?_ hsum.ne_nil ?_
      · exact natAbs_wrap32_lt hlong.le _
      · exact ne_toList_wrap32 hsum.isDigit hlong _

/-- Without deviations there is a single number of 31 bits. -/
theorem lt_of_zero (h : Summed x n 0) : n < 2 ^ 31 := by
  generalize hk : 0 = k at h
  cases h with
  | literal _ =>
    split at hk
    · assumption
    · omega
  | plus _ _ => omega

end Summed

end AdLint
