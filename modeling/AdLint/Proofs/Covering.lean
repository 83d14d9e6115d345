import AdLint.Baseline
import Mathlib.Algebra.BigOperators.Group.Finset.Basic
import Mathlib.Data.List.Perm.Subperm

/-!
# What a baseline covers

A baseline is compared with findings by their keys. The findings are gone through in order, and each
takes one entry with its key away, as long as there is one. What is left over on either side is the
difference of two multisets of keys: the findings without an entry are reported as new, in their
order, and the entries without a finding count as fixed. So of all findings with one key the first
ones are covered, as many as the baseline has entries with it, whatever findings with other keys
stand between them.

## Main definitions

* `Baseline.keysOf`, `Baseline.keys`: the keys of findings, and those of a baseline
* `Baseline.openPlaces`: the places in a list of findings that are not covered

## Main results

* `Baseline.uncovered_eq_filterMap`: the findings at the open places are left
* `Baseline.filter_uncovered`: of the findings with one key, the first ones are covered
* `Baseline.map_keyOf_uncovered`: the keys of what is left are a difference of lists
* `Baseline.uncovered_sublist`: fewer findings and more entries leave fewer findings uncovered
* `Baseline.newOf_ofFindings`: a baseline covers its own findings
* `Baseline.newOf_subtracts_keys`: what is new, found and fixed
-/

namespace AdLint.Baseline

/-- The keys of the entries, in order. -/
def keys (b : Baseline) : List BaselineKey := b.entries.map BaselineEntry.key

/-- The key that a finding is looked up with: the code of its rule, its path as seen from the base
if it lies below it and as written otherwise, with slashes between the segments, its subject and its
message. Its line is no part of it. -/
def keyOf (base : Path) (f : Finding) : BaselineKey :=
  { rule := f.rule.code
    file := Text.replaceChar '\\' '/' ((f.location.file.relativeTo? base).getD f.location.file).text
    subject := f.subject
    message := f.message }

theorem key_ofFinding (base : Path) (f : Finding) :
    (BaselineEntry.ofFinding base f).key = keyOf base f := rfl

/-- The keys of findings, in order. -/
def keysOf (base : Path) (found : List Finding) : List BaselineKey := found.map (keyOf base)

theorem keysOf_nil (base : Path) : keysOf base [] = [] := List.map_nil

theorem keysOf_cons (base : Path) (f : Finding) (found : List Finding) :
    keysOf base (f :: found) = keyOf base f :: keysOf base found := rfl

theorem keysOf_append (base : Path) (xs ys : List Finding) :
    keysOf base (xs ++ ys) = keysOf base xs ++ keysOf base ys := List.map_append

theorem length_keysOf (base : Path) (found : List Finding) :
    (keysOf base found).length = found.length :=
  List.length_map _

/-- Whether the place `i` of a list of keys is covered when each key of `budget` covers one place:
it is one of the first places with its key, of which as many are covered as both lists have. -/
def isCovered (budget keys : List BaselineKey) (i : Nat) : Bool :=
  keys[i]?.any fun key => (keys.take i).count key < min (keys.count key) (budget.count key)

/-- The places of a list of keys that are not covered, in order. -/
def openPlaces (budget keys : List BaselineKey) : List Nat :=
  (List.range keys.length).filter fun i => !isCovered budget keys i

section Scan

variable {base : Path} {budget keys : List BaselineKey} {found : List Finding}

/-! ## One finding after the other -/

theorem uncovered_cons (base : Path) (keys : List BaselineKey) (f : Finding)
    (found : List Finding) :
    uncovered base keys (f :: found) =
      if keyOf base f ∈ keys then uncovered base (keys.erase (keyOf base f)) found
      else f :: uncovered base keys found := by
  simp only [uncovered, key_ofFinding, List.contains_eq_mem, decide_eq_true_eq]

/-- The first finding is left if no entry has its key. Either way its key is taken from the entries,
since taking a key that is not there changes nothing. -/
theorem uncovered_cons_append (f : Finding) :
    uncovered base budget (f :: found) =
      (if keyOf base f ∈ budget then [] else [f]) ++
        uncovered base (budget.erase (keyOf base f)) found := by
  rw [uncovered_cons]
  split
  · rfl
  · next h => rw [List.erase_of_not_mem h, List.singleton_append]

theorem isCovered_cons_zero (key : BaselineKey) :
    isCovered budget (key :: keys) 0 = decide (key ∈ budget) := by
  rw [isCovered, List.getElem?_cons_zero, Option.any_some, List.take_zero, List.count_nil,
    List.count_cons_self, decide_eq_decide, Nat.lt_min, List.count_pos_iff]
  exact and_iff_right (Nat.succ_pos _)

theorem isCovered_cons_succ (key : BaselineKey) (i : Nat) :
    isCovered budget (key :: keys) (i + 1) = isCovered (budget.erase key) keys i := by
  rw [isCovered, isCovered, List.getElem?_cons_succ]
  cases keys[i]? with
  | none => rfl
  | some other =>
    rw [Option.any_some, Option.any_some, List.take_succ_cons, decide_eq_decide]
    by_cases h : other = key
    · -- one place more before it, and one entry more to cover it
      subst h
      rw [List.count_cons_self, List.count_cons_self, List.count_erase_self]
      omega
    · rw [List.count_cons_of_ne (Ne.symm h), List.count_cons_of_ne (Ne.symm h),
        List.count_erase_of_ne h]

theorem openPlaces_cons (key : BaselineKey) :
    openPlaces budget (key :: keys) =
      (if key ∈ budget then [] else [0]) ++ (openPlaces (budget.erase key) keys).map Nat.succ := by
  have hlater : (fun i => !isCovered budget (key :: keys) i) ∘ Nat.succ =
      fun i => !isCovered (budget.erase key) keys i :=
    funext fun i => congrArg not (isCovered_cons_succ key i)
  rw [openPlaces, List.length_cons, List.range_succ_eq_map, List.filter_cons,
    List.filter_map, hlater, isCovered_cons_zero, ← openPlaces]
  by_cases h : key ∈ budget <;> simp [h]

/-- **The findings at the open places are left.** -/
theorem uncovered_eq_filterMap :
    uncovered base budget found =
      (openPlaces budget (keysOf base found)).filterMap fun i => found[i]? := by
  induction found generalizing budget with
  | nil => rfl
  | cons f found ih =>
    rw [uncovered_cons_append, ih, keysOf_cons, openPlaces_cons, List.filterMap_append,
      List.filterMap_map]
    congr 1
    split <;> rfl

/-- **Of the findings with one key, the first ones are covered,** as many as there are entries with
it. -/
theorem filter_uncovered (key : BaselineKey) :
    ((uncovered base budget found).filter fun f => keyOf base f = key) =
      (found.filter fun f => keyOf base f = key).drop (budget.count key) := by
  induction found generalizing budget with
  | nil => exact List.drop_nil.symm
  | cons f found ih =>
    rw [uncovered_cons_append, List.filter_append, ih]
    by_cases hkey : keyOf base f = key
    · rw [List.filter_cons_of_pos (by simpa using hkey), hkey, List.count_erase_self]
      by_cases hmem : key ∈ budget
      · obtain ⟨n, hn⟩ := Nat.exists_eq_succ_of_ne_zero (List.count_pos_iff.mpr hmem).ne'
        simp [hmem, hn]
      · simp [hmem, List.count_eq_zero.mpr hmem, hkey]
    · rw [List.filter_cons_of_neg (by simpa using hkey), List.count_erase_of_ne (Ne.symm hkey)]
      split <;> simp [hkey]

/-- **The keys of what is left are a difference of lists.** -/
theorem map_keyOf_uncovered :
    keysOf base (uncovered base budget found) = (keysOf base found).diff budget := by
  induction found generalizing budget with
  | nil => exact (List.nil_diff budget).symm
  | cons f found ih =>
    rw [uncovered_cons_append, keysOf_append, ih, keysOf_cons, List.cons_diff]
    split
    · rfl
    · next h =>
      rw [List.erase_of_not_mem h]
      rfl

/-! ## Fewer findings, and findings of the baseline itself -/

/-- **Fewer findings and more entries leave fewer findings uncovered.** An entry is used up by the
first finding it covers, so a finding that is taken away leaves its entry to the findings after
it. -/
theorem uncovered_sublist {base : Path} {keys keys' : List BaselineKey}
    {found found' : List Finding}
    (hfound : found'.Sublist found) (hkeys : keys.Subperm keys') :
    (uncovered base keys' found').Sublist (uncovered base keys found) := by
  -- along both lists at once, the smaller one always has the more entries left
  induction hfound generalizing keys keys' with
  | slnil => exact List.Sublist.refl _
  | cons f _ ih =>
    rw [uncovered_cons base keys]
    split
    · exact ih ((List.erase_subperm _ _).trans hkeys)
    · exact (ih hkeys).cons f
  | cons_cons f _ ih =>
    rw [uncovered_cons, uncovered_cons]
    by_cases hmem : keyOf base f ∈ keys
    · rw [if_pos hmem, if_pos (hkeys.subset hmem)]
      exact ih (hkeys.erase _)
    · rw [if_neg hmem]
      split
      · -- only the smaller list has an entry for `f`
        have hleft := hkeys.erase (keyOf base f)
        rw [List.erase_of_not_mem hmem] at hleft
        exact (ih hleft).cons f
      · exact (ih hkeys).cons_cons f

theorem newOf_sublist (b : Baseline) (base : Path) {found found' : List Finding}
    (h : found'.Sublist found) : (b.newOf base found').Sublist (b.newOf base found) :=
  uncovered_sublist h (List.Subperm.refl _)

theorem uncovered_eq_nil {base : Path} {keys : List BaselineKey} {found : List Finding}
    (h : (keysOf base found).Subperm keys) : uncovered base keys found = [] := by
  induction found generalizing keys with
  | nil => rfl
  | cons f found ih =>
    rw [keysOf_cons] at h
    have hleft := h.erase (keyOf base f)
    rw [List.erase_cons_head] at hleft
    rw [uncovered_cons, if_pos (h.subset List.mem_cons_self), ih hleft]

theorem perm_entries_ofFindings (base : Path) (found : List Finding) :
    (ofFindings base found).entries.Perm (found.map (BaselineEntry.ofFinding base)) :=
  List.mergeSort_perm _ _

/-- **A baseline covers its own findings,** some of them or all, in any order. -/
theorem newOf_ofFindings {base : Path} {found part : List Finding} (h : part.Subperm found) :
    (ofFindings base found).newOf base part = [] := by
  refine uncovered_eq_nil ?_
  have hkeys := (perm_entries_ofFindings base found).map BaselineEntry.key
  rw [List.map_map] at hkeys
  obtain ⟨sub, hperm, hsub⟩ := h
  have hpart : (keysOf base part).Subperm (keysOf base found) :=
    (hperm.map _).symm.subperm.trans (hsub.map _).subperm
  exact hpart.trans hkeys.symm.subperm

end Scan

/-! ## New, found and fixed

The keys of the findings and those of the entries are two multisets. What is new is the first
without the second, what is fixed is the second without the first, and what is found is in both. -/

section Comparison

variable (b : Baseline) (base : Path) (found : List Finding)

theorem uncovered_nil (base : Path) (found : List Finding) : uncovered base [] found = found := by
  induction found with
  | nil => rfl
  | cons f found ih => rw [uncovered_cons, if_neg List.not_mem_nil, ih]

theorem newOf_sublist_self : (b.newOf base found).Sublist found := by
  have h : (uncovered base b.keys found).Sublist (uncovered base [] found) :=
    uncovered_sublist (List.Sublist.refl found) List.nil_subperm
  rwa [uncovered_nil] at h

/-- Of the findings with one key, as many are covered as both sides have. -/
theorem filter_newOf (key : BaselineKey) :
    ((b.newOf base found).filter fun f => keyOf base f = key) =
      (found.filter fun f => keyOf base f = key).drop
        (min ((keysOf base found).count key) (b.keys.count key)) := by
  have hcount :
      (keysOf base found).count key = (found.filter fun f => keyOf base f = key).length := by
    rw [keysOf, List.count_eq_countP, List.countP_map, List.countP_eq_length_filter]
    rfl
  rw [hcount, Nat.min_comm, ← List.drop_eq_drop_min]
  exact filter_uncovered key

theorem ofList_keysOf_newOf :
    Multiset.ofList (keysOf base (b.newOf base found)) =
      Multiset.ofList (keysOf base found) - Multiset.ofList b.keys := by
  rw [newOf, ← keys, map_keyOf_uncovered, Multiset.coe_sub]

theorem length_newOf :
    (b.newOf base found).length =
      (Multiset.ofList (keysOf base found) - Multiset.ofList b.keys).card := by
  rw [← ofList_keysOf_newOf, Multiset.coe_card, length_keysOf]

/-- The findings in both multisets and those in the first alone are all findings. -/
theorem card_inter_add_length_newOf :
    (Multiset.ofList (keysOf base found) ∩ Multiset.ofList b.keys).card +
      (b.newOf base found).length = found.length := by
  rw [length_newOf, ← Multiset.card_add, Multiset.add_comm, Multiset.sub_add_inter,
    Multiset.coe_card, length_keysOf]

theorem found_comparison_eq_card :
    (b.comparison base found).found =
      (Multiset.ofList (keysOf base found) ∩ Multiset.ofList b.keys).card :=
  (Nat.eq_sub_of_add_eq (card_inter_add_length_newOf b base found)).symm

/-- The entries in both multisets and those in the second alone are all entries. -/
theorem found_comparison_add_card :
    (b.comparison base found).found +
        (Multiset.ofList b.keys - Multiset.ofList (keysOf base found)).card = b.entries.length := by
  rw [found_comparison_eq_card, Multiset.inter_comm, ← Multiset.card_add, Multiset.add_comm,
    Multiset.sub_add_inter, Multiset.coe_card, keys, List.length_map]

theorem fixed_comparison_eq_card :
    (b.comparison base found).fixed =
      (Multiset.ofList b.keys - Multiset.ofList (keysOf base found)).card :=
  (Nat.eq_sub_of_add_eq' (found_comparison_add_card b base found)).symm

/-- Keys are counted one by one. -/
theorem card_eq_sum_count {s : Multiset BaselineKey} {listed : List BaselineKey}
    (h : ∀ key ∈ s, key ∈ listed) : s.card = ∑ key ∈ listed.toFinset, s.count key :=
  (Multiset.sum_count_eq_card fun key hkey => List.mem_toFinset.mpr (h key hkey)).symm

theorem found_comparison_eq_sum :
    (b.comparison base found).found =
      ∑ key ∈ (keysOf base found ++ b.keys).toFinset,
        min ((keysOf base found).count key) (b.keys.count key) := by
  have hlisted : ∀ key ∈ Multiset.ofList (keysOf base found) ∩ Multiset.ofList b.keys,
      key ∈ keysOf base found ++ b.keys := by
    intro key hkey
    exact List.mem_append_left _ (Multiset.mem_inter.mp hkey).1
  rw [found_comparison_eq_card, card_eq_sum_count hlisted]
  simp only [Multiset.count_inter, Multiset.coe_count]

theorem fixed_comparison_eq_sum :
    (b.comparison base found).fixed =
      ∑ key ∈ (keysOf base found ++ b.keys).toFinset,
        (b.keys.count key - (keysOf base found).count key) := by
  have hlisted : ∀ key ∈ Multiset.ofList b.keys - Multiset.ofList (keysOf base found),
      key ∈ keysOf base found ++ b.keys := by
    intro key hkey
    exact List.mem_append_right _ (Multiset.mem_of_le (Multiset.sub_le_self _ _) hkey)
  rw [fixed_comparison_eq_card, card_eq_sum_count hlisted]
  simp only [Multiset.count_sub, Multiset.coe_count]

/-- **Comparing findings with a baseline is subtraction of multisets of keys.** What is new is a
part of the findings, in their order: the places that are left are those that are not among the
first ones with their key, of which as many are covered as both sides have. So the keys of what is
new are the keys of the findings without those of the entries. The findings are found or new and the
entries found or fixed, and the numbers of both kinds are counted key by key. -/
theorem newOf_subtracts_keys :
    ((b.newOf base found).Sublist found ∧
      b.newOf base found = (openPlaces b.keys (keysOf base found)).filterMap (fun i => found[i]?) ∧
      (∀ key, ((b.newOf base found).filter fun f => keyOf base f = key) =
        (found.filter fun f => keyOf base f = key).drop
          (min ((keysOf base found).count key) (b.keys.count key))) ∧
      Multiset.ofList (keysOf base (b.newOf base found)) =
        Multiset.ofList (keysOf base found) - Multiset.ofList b.keys) ∧
      (b.comparison base found).total = b.entries.length ∧
      (b.comparison base found).new = (b.newOf base found).length ∧
      (b.comparison base found).found + (b.comparison base found).new = found.length ∧
      (b.comparison base found).found + (b.comparison base found).fixed =
        (b.comparison base found).total ∧
      (b.comparison base found).found =
        ∑ key ∈ (keysOf base found ++ b.keys).toFinset,
          min ((keysOf base found).count key) (b.keys.count key) ∧
      (b.comparison base found).fixed =
        ∑ key ∈ (keysOf base found ++ b.keys).toFinset,
          (b.keys.count key - (keysOf base found).count key) := by
  refine ⟨⟨newOf_sublist_self b base found, uncovered_eq_filterMap, filter_newOf b base found,
    ofList_keysOf_newOf b base found⟩, rfl, rfl, ?_, ?_, found_comparison_eq_sum b base found,
    fixed_comparison_eq_sum b base found⟩
  · rw [found_comparison_eq_card]
    exact card_inter_add_length_newOf b base found
  · rw [fixed_comparison_eq_card]
    exact found_comparison_add_card b base found

end Comparison

end AdLint.Baseline
