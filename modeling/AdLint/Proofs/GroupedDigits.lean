import AdLint.Report.Share
import Mathlib.Data.List.Basic

/-!
# Grouped digits

A count is written in groups of three digits. Groups are counted from the last digit, so it is read
from there: behind every third digit stands a separator, if another digit follows. Without its
separators a count is the decimal numeral of its number. So no two numbers are written alike.

## Main definitions

* `Due`: a separator is due between the characters that were read and those that are left

## Main results

* `separates_exactly`: digits are separated exactly where a separator is due
* `thousands_grouped`: how a count is written, and that no other number is written like it
-/

namespace AdLint.Share

variable {digits read rest : List Char} {c : Char}

/-- A separator is due: the last character that was read is a digit, it is the third of its group,
and another digit is left. -/
structure Due (read rest : List Char) : Prop where
  behindDigit : ∃ d, read.getLast? = some d ∧ d.isDigit = true
  third : 3 ∣ (read.filter Char.isDigit).length
  further : ∃ d ∈ rest, d.isDigit = true

/-- Nothing is due before the third digit. -/
theorem not_due_of_length_lt (hread : read.length < 3) : ¬ Due read rest := by
  rintro ⟨⟨d, hlast, hdigit⟩, hthird, -⟩
  have hpos : 0 < (read.filter Char.isDigit).length :=
    List.length_pos_of_mem (List.mem_filter.mpr ⟨List.mem_of_getLast? hlast, hdigit⟩)
  have hle := List.length_filter_le Char.isDigit read
  have := Nat.le_of_dvd hpos hthird
  omega

/-- What is due behind a group and its separator is due without them. -/
theorem due_group_append {x y z : Char} (hgroup : ∀ d ∈ [x, y, z], d.isDigit = true) :
    Due (x :: y :: z :: ',' :: read) rest ↔ Due read rest := by
  have hthird : 3 ∣ ((x :: y :: z :: ',' :: read).filter Char.isDigit).length ↔
      3 ∣ (read.filter Char.isDigit).length := by
    have hcount : ((x :: y :: z :: ',' :: read).filter Char.isDigit).length =
        (read.filter Char.isDigit).length + 3 := by
      simp only [List.forall_mem_cons] at hgroup
      simp [hgroup]
    rw [hcount, Nat.dvd_add_left (Nat.dvd_refl 3)]
  have hlast : (∃ d, (x :: y :: z :: ',' :: read).getLast? = some d ∧ d.isDigit = true) ↔
      ∃ d, read.getLast? = some d ∧ d.isDigit = true := by
    cases read with
    | nil => simp
    | cons e read => simp [List.getLast?_cons_cons]
  constructor
  · intro h
    exact ⟨hlast.mp h.behindDigit, hthird.mp h.third, h.further⟩
  · intro h
    exact ⟨hlast.mpr h.behindDigit, hthird.mpr h.third, h.further⟩

/-- A digit is no separator. -/
theorem ne_separator_of_isDigit (hc : c.isDigit = true) : c ≠ ',' := by
  rintro rfl
  cases hc

theorem filter_separate (hdigits : ∀ d ∈ digits, d.isDigit = true) :
    (separate digits).filter (fun c => c != ',') = digits := by
  fun_induction separate digits with
  | case1 x y z d rest ih =>
    have hrest := ih fun e he => hdigits e (by simp_all)
    have hx := ne_separator_of_isDigit (hdigits x (by simp))
    have hy := ne_separator_of_isDigit (hdigits y (by simp))
    have hz := ne_separator_of_isDigit (hdigits z (by simp))
    simp [hx, hy, hz, hrest]
  | case2 digits _ =>
    refine List.filter_eq_self.mpr fun c hc => ?_
    simpa using ne_separator_of_isDigit (hdigits c hc)

/-- Before the third digit there is no separator, and none is due. -/
theorem separator_iff_of_length_lt (hread : read.length < 3) (hc : c.isDigit = true) :
    c = ',' ↔ Due read (c :: rest) :=
  iff_of_false (ne_separator_of_isDigit hc) (not_due_of_length_lt hread)

/-- **Digits are separated exactly where a separator is due**, read from the last one on. -/
theorem separates_exactly (hdigits : ∀ d ∈ digits, d.isDigit = true)
    (h : separate digits = read ++ c :: rest) : c = ',' ↔ Due read (c :: rest) := by
  fun_induction separate digits generalizing read with
  | case1 x y z d more ih =>
    obtain ⟨hx, hy, hz, hmore⟩ : x.isDigit = true ∧ y.isDigit = true ∧ z.isDigit = true ∧
        ∀ e ∈ d :: more, e.isDigit = true := by
      simpa using hdigits
    -- the character is one of the group, its separator, or one behind them
    match read, h with
    | [], h =>
      obtain ⟨rfl, -⟩ := List.cons.inj h
      exact separator_iff_of_length_lt (by simp) hx
    | [_], h =>
      obtain ⟨rfl, -⟩ := List.cons.inj (List.cons.inj h).2
      exact separator_iff_of_length_lt (by simp) hy
    | [_, _], h =>
      obtain ⟨rfl, -⟩ := List.cons.inj (List.cons.inj (List.cons.inj h).2).2
      exact separator_iff_of_length_lt (by simp) hz
    | [_, _, _], h =>
      simp only [List.cons_append, List.nil_append, List.cons.injEq] at h
      obtain ⟨rfl, rfl, rfl, rfl, rfl⟩ := h
      refine iff_of_true rfl ⟨⟨z, rfl, hz⟩, by simp [hx, hy, hz], ?_⟩
      have hd : d ∈ (separate (d :: more)).filter (fun c => c != ',') := by
        rw [filter_separate hmore]
        exact List.mem_cons_self
      exact ⟨d, List.mem_cons_of_mem _ (List.mem_of_mem_filter hd), hmore d List.mem_cons_self⟩
    | _ :: _ :: _ :: _ :: read, h =>
      simp only [List.cons_append, List.cons.injEq] at h
      obtain ⟨rfl, rfl, rfl, rfl, h⟩ := h
      rw [due_group_append (by simp [hx, hy, hz])]
      exact ih hmore h
  | case2 digits hshort =>
    have hlength : digits.length ≤ 3 := by
      match digits, hshort with
      | [], _ | [_], _ | [_, _], _ | [_, _, _], _ => simp
      | x :: y :: z :: d :: more, hshort => exact absurd rfl (hshort x y z d more)
    have hc : c ∈ digits := by simp [h]
    rw [h, List.length_append, List.length_cons] at hlength
    exact separator_iff_of_length_lt (by omega) (hdigits c hc)

/-! ## Counts -/

theorem isDigit_of_mem_reverse_toDigits {n : Nat} :
    ∀ d ∈ (Nat.toDigits 10 n).reverse, d.isDigit = true :=
  fun _ hd => Nat.isDigit_of_mem_toDigits (by omega) (by omega) (List.mem_reverse.mp hd)

theorem reverse_thousands (n : Nat) :
    (thousands n).toList.reverse = separate (Nat.toDigits 10 n).reverse := by
  rw [thousands, String.toList_ofList, List.reverse_reverse, Nat.toString_eq_repr, Nat.toList_repr]

theorem filter_thousands (n : Nat) :
    (thousands n).toList.filter (fun c => c != ',') = Nat.toDigits 10 n := by
  have hreverse := filter_separate (isDigit_of_mem_reverse_toDigits (n := n))
  rw [← reverse_thousands, List.filter_reverse] at hreverse
  exact List.reverse_injective hreverse

/-- **How a count is written.** Without its separators it is the decimal numeral of its number. It
does not begin or end with one, and read from the right it has separators exactly where they are
due. No two numbers are written alike. -/
theorem thousands_grouped :
    (∀ n, (thousands n).toList.filter (fun c => c != ',') = Nat.toDigits 10 n ∧
      (thousands n).toList.head? ≠ some ',' ∧ (thousands n).toList.getLast? ≠ some ',' ∧
        ∀ read c rest, (thousands n).toList.reverse = read ++ c :: rest →
          (c = ',' ↔ Due read (c :: rest))) ∧
      Function.Injective thousands := by
  constructor
  · intro n
    have hexact : ∀ read c rest, (thousands n).toList.reverse = read ++ c :: rest →
        (c = ',' ↔ Due read (c :: rest)) := by
      intro read c rest h
      rw [reverse_thousands] at h
      exact separates_exactly isDigit_of_mem_reverse_toDigits h
    refine ⟨filter_thousands n, ?_, ?_, hexact⟩
    · -- behind the first character no digit is left
      intro hhead
      obtain ⟨rest, hrest⟩ := List.head?_eq_some_iff.mp hhead
      obtain ⟨d, hd, hdigit⟩ := ((hexact rest.reverse ',' [] (by simp [hrest])).mp rfl).further
      rw [List.mem_singleton.mp hd] at hdigit
      cases hdigit
    · -- before the last character no digit was read
      intro hlast
      obtain ⟨read, hread⟩ := List.getLast?_eq_some_iff.mp hlast
      have hdue := (hexact [] ',' read.reverse (by simp [hread])).mp rfl
      exact not_due_of_length_lt (by simp) hdue
  · intro m n h
    have hdigits : Nat.toDigits 10 m = Nat.toDigits 10 n := by
      rw [← filter_thousands, h, filter_thousands]
    rw [← Nat.ofDigitChars_ten_toDigits (n := m), hdigits, Nat.ofDigitChars_ten_toDigits]

example : thousands 100 = "100" ∧ thousands 1000 = "1,000" ∧ thousands 1234567 = "1,234,567" := by
  decide

end AdLint.Share
