import AdLint.Settings.Basic
import Mathlib.Data.List.Basic

/-!
# Patterns for the start of a text

The pattern that file names have to match asks for a word at the start and ignores case. It is a
sequence of sets, one for each letter of the word, behind an assertion that holds at the start
alone. A character is in the set of a small letter if it folds to that letter: the orbit of a
character holds its folding and all that fold to the same, and among these there is one small letter
at most.

## Main definitions

* `Text.BeginsCaseless`: a text begins with a word when case is ignored
* `Pattern.caseless`, `Pattern.atStart`: the pattern of a word, and of a word at the start

## Main results

* `CharSet.has_folded_single`: the characters in the set of a small letter
* `Pattern.isMatch_atStart`: the texts that the pattern matches
* `Pattern.parse?_requiredPattern`: the pattern of the default settings
-/

namespace AdLint

/-! ## Characters that fold to a small letter -/

namespace Text

/-- A text begins with a word when case is ignored. -/
def BeginsCaseless (word s : String) : Prop := word.toList.map fold <+: s.toList.map fold

instance (word s : String) : Decidable (BeginsCaseless word s) :=
  inferInstanceAs (Decidable (word.toList.map fold <+: s.toList.map fold))

theorem toNat_ofNat_eq_or (n : Nat) : (Char.ofNat n).toNat = n ∨ (Char.ofNat n).toNat = 0 := by
  by_cases h : n.isValidChar
  · exact .inl (congrArg Char.toNat (dif_pos h))
  · exact .inr (congrArg Char.toNat (dif_neg h))

theorem isLower_iff {c : Char} : c.isLower = true ↔ 97 ≤ c.toNat ∧ c.toNat ≤ 122 := by
  change (decide (c.val ≥ 'a'.val) && decide (c.val ≤ 'z'.val)) = true ↔ _
  rw [Bool.and_eq_true, decide_eq_true_eq, decide_eq_true_eq, ge_iff_le, UInt32.le_iff_toNat_le,
    UInt32.le_iff_toNat_le]
  exact Iff.rfl

theorem isLower_toUpper (c : Char) : c.toUpper.isLower = false := by
  rw [Bool.eq_false_iff, ne_eq, isLower_iff]
  unfold Char.toUpper
  split
  · next h =>
    have hfirst : 97 ≤ c.toNat := UInt32.le_iff_toNat_le.mp h.1
    have hlast : c.toNat ≤ 122 := UInt32.le_iff_toNat_le.mp h.2
    have hvalue : (c.val + ('A'.val - 'a'.val)).toNat = c.toNat - 32 := by
      rw [UInt32.toNat_add]
      change (c.toNat + 4294967264) % 4294967296 = _
      omega
    rw [Char.toNat, hvalue]
    omega
  · next h =>
    rintro ⟨hfirst, hlast⟩
    exact h ⟨UInt32.le_iff_toNat_le.mpr hfirst, UInt32.le_iff_toNat_le.mpr hlast⟩

theorem fold_of_isLower {c : Char} (h : c.isLower = true) : fold c = c := by
  obtain ⟨hfirst, hlast⟩ := isLower_iff.mp h
  have hupper : ¬ (c.val ≥ 'A'.val ∧ c.val ≤ 'Z'.val) := by
    rintro ⟨-, hle⟩
    have hle : c.toNat ≤ 90 := UInt32.le_iff_toNat_le.mp hle
    omega
  rw [fold, if_pos (by omega)]
  exact dif_neg hupper

theorem map_fold_of_isLower {word : List Char} (h : ∀ c ∈ word, c.isLower = true) :
    word.map fold = word := by
  conv_rhs => rw [← List.map_id word]
  exact List.map_congr_left fun c hc => fold_of_isLower (h c hc)

/-- A text that begins with a word has it in its first part, or the first part is a beginning of the
word and the second part goes on with the rest. -/
theorem beginsCaseless_append_iff {word s t : String} :
    BeginsCaseless word (s ++ t) ↔ BeginsCaseless word s ∨
      ∃ rest, word.toList.map fold = s.toList.map fold ++ rest ∧ rest <+: t.toList.map fold := by
  rw [BeginsCaseless, BeginsCaseless, String.toList_append, List.map_append]
  constructor
  · intro h
    rcases List.prefix_or_prefix_of_prefix h (List.prefix_append _ _) with hfirst | ⟨rest, hrest⟩
    · exact .inl hfirst
    · rw [← hrest, List.prefix_append_right_inj] at h
      exact .inr ⟨rest, hrest.symm, h⟩
  · rintro (hfirst | ⟨rest, hrest, hsecond⟩)
    · exact hfirst.trans (List.prefix_append _ _)
    · rw [hrest]
      exact (List.prefix_append_right_inj _).mpr hsecond

/-- No stretch of folded characters holds a small letter. -/
theorem foldStretches_apart :
    (foldStretches.all fun f =>
      f.stretch.first ≤ f.stretch.last && (f.stretch.last < 97 || 122 < f.stretch.first)) =
        true := by
  decide +kernel

/-- The one small letter in the orbit of a character is what the character folds to. -/
theorem mem_orbit_iff {c x : Char} (hx : x.isLower = true) : x ∈ orbit c ↔ fold c = x := by
  rw [orbit, List.mem_cons, List.mem_cons]
  constructor
  · rintro (rfl | rfl | hlisted)
    · rfl
    · rw [isLower_toUpper] at hx
      cases hx
    · -- the other characters of the orbit stand on a stretch, where there are no small letters
      obtain ⟨f, hf, hchar⟩ := List.mem_filterMap.mp hlisted
      have hapart := List.all_eq_true.mp foldStretches_apart f hf
      simp only [Bool.and_eq_true, Bool.or_eq_true, decide_eq_true_eq] at hapart
      rw [isLower_iff] at hx
      simp only [Option.ite_none_right_eq_some, Bool.and_eq_true, decide_eq_true_eq,
        Option.some.injEq] at hchar
      obtain ⟨⟨⟨hfrom, hto⟩, -⟩, rfl⟩ := hchar
      rcases toNat_ofNat_eq_or
        (f.stretch.first + ((fold c).toNat - f.target)) with hvalue | hvalue <;> omega
  · rintro rfl
    exact .inl rfl

end Text

theorem CharSet.has_single {c x : Char} : (CharSet.single x).has c = true ↔ c = x := by
  rw [single, has, Bool.and_eq_true, decide_eq_true_eq, decide_eq_true_eq]
  constructor
  · rintro ⟨hfirst, hlast⟩
    exact Char.le_antisymm hlast hfirst
  · rintro rfl
    exact ⟨Char.le_refl c, Char.le_refl c⟩

/-- **The characters in the set of a small letter** are those that fold to it. -/
theorem CharSet.has_folded_single {c x : Char} (hx : x.isLower = true) :
    (CharSet.folded (.single x)).has c = true ↔ Text.fold c = x := by
  rw [has, List.any_eq_true, ← Text.mem_orbit_iff hx]
  simp only [CharSet.has_single, exists_eq_right]

/-! ## The pattern of a word -/

namespace Pattern

/-- The pattern of a word when case is ignored. -/
def caseless (word : List Char) : Pattern :=
  word.foldr (fun c rest => .sequence (.chars (.folded (.single c))) rest) .empty

/-- The pattern of a word at the start of a text when case is ignored. -/
def atStart (word : String) : Pattern := .sequence (.assertion .textStart) (caseless word.toList)

theorem positions_eq_nil_iff {is : List Nat} : positions is = [] ↔ is = [] := by
  cases is with
  | nil => exact iff_of_true rfl rfl
  | cons i is =>
    rw [positions, List.eraseDups_cons]
    exact iff_of_false (List.cons_ne_nil _ _) (List.cons_ne_nil _ _)

/-- A word is matched from a position on if the folded text goes on with it there. -/
theorem ends_caseless_ne_nil {word cs : List Char} (hword : ∀ c ∈ word, c.isLower = true)
    (i : Nat) :
    (caseless word).ends cs.toArray i ≠ [] ↔ word <+: (cs.drop i).map Text.fold := by
  induction word generalizing i with
  | nil => exact iff_of_true (List.cons_ne_nil _ _) List.nil_prefix
  | cons x word ih =>
    obtain ⟨hx, hword⟩ := List.forall_mem_cons.mp hword
    have hends : (caseless (x :: word)).ends cs.toArray i =
        positions ((if cs[i]?.any (CharSet.folded (.single x)).has then [i + 1] else []).flatMap
          ((caseless word).ends cs.toArray)) := by
      rw [caseless, List.foldr_cons, ← caseless, ends, ends, List.getElem?_toArray]
    rw [hends, ne_eq, positions_eq_nil_iff]
    by_cases hi : i < cs.length
    · rw [List.getElem?_eq_getElem hi, Option.any_some, List.drop_eq_getElem_cons hi, List.map_cons,
        List.cons_prefix_cons, ← ih hword, eq_comm (a := x), ← CharSet.has_folded_single hx]
      by_cases hhas : (CharSet.folded (.single x)).has cs[i] = true <;> simp [hhas]
    · rw [List.getElem?_eq_none (Nat.le_of_not_lt hi), List.drop_eq_nil_of_le (Nat.le_of_not_lt hi)]
      simp

/-- The start of a text has nothing before it. -/
theorem holds_textStart_iff {cs : List Char} {i : Nat} (hi : i ≤ cs.length) :
    holds cs.toArray i .textStart = true ↔ i = 0 := by
  have hbefore : holds cs.toArray i .textStart = (if i == 0 then none else cs[i - 1]?).isNone := by
    rw [holds, neighbours, List.getElem?_toArray]
  rw [hbefore]
  cases i with
  | zero => exact iff_of_true rfl rfl
  | succ i =>
    rw [if_neg (by simp), Nat.add_sub_cancel, List.getElem?_eq_getElem hi]
    exact iff_of_false Bool.false_ne_true (Nat.succ_ne_zero i)

theorem ends_atStart_ne_nil {word : String} {cs : List Char}
    (hword : ∀ c ∈ word.toList, c.isLower = true)
    {i : Nat} (hi : i ≤ cs.length) :
    (atStart word).ends cs.toArray i ≠ [] ↔ i = 0 ∧ word.toList <+: cs.map Text.fold := by
  have hends : (atStart word).ends cs.toArray i =
      positions ((if holds cs.toArray i .textStart then [i] else []).flatMap
        ((caseless word.toList).ends cs.toArray)) := rfl
  rw [hends, ne_eq, positions_eq_nil_iff]
  by_cases hzero : i = 0
  · rw [if_pos ((holds_textStart_iff hi).mpr hzero), List.flatMap_singleton, ← ne_eq,
      ends_caseless_ne_nil hword, hzero, List.drop_zero]
    exact (and_iff_right rfl).symm
  · rw [if_neg (mt (holds_textStart_iff hi).mp hzero), List.flatMap_nil]
    exact iff_of_false (not_not_intro rfl) fun h => hzero h.1

/-- **The texts that begin with a word when case is ignored** are those that the pattern of the word
matches. -/
theorem isMatch_atStart {word : String} (hword : ∀ c ∈ word.toList, c.isLower = true) (s : String) :
    (atStart word).isMatch s = true ↔ Text.BeginsCaseless word s := by
  rw [isMatch, List.any_eq_true, Text.BeginsCaseless, Text.map_fold_of_isLower hword]
  constructor
  · rintro ⟨i, hi, hends⟩
    have hle : i ≤ s.toList.length := Nat.le_of_lt_succ (List.mem_range.mp hi)
    exact ((ends_atStart_ne_nil hword hle).mp (by simpa using hends)).2
  · intro hbegins
    refine ⟨0, List.mem_range.mpr (Nat.succ_pos _), ?_⟩
    simpa using (ends_atStart_ne_nil hword (Nat.zero_le _)).mpr ⟨rfl, hbegins⟩

/-- The pattern of the default settings asks for a word at the start. -/
theorem parse?_requiredPattern :
    parse? ({} : FileNamingSettings).requiredPattern = some (atStart "adservices") := rfl

end Pattern

end AdLint
