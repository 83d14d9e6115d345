import AdLint.Proofs.Occurrences
import AdLint.Proofs.Order
import AdLint.Proofs.Record
import AdLint.Report.Statistics
import Mathlib.Algebra.Ring.Nat
import Mathlib.Data.List.Dedup

/-!
# Findings by rule, and how many there are

Findings are counted by severity, confidence, category and rule, and grouped by rule. All of these
split the findings by a key: every finding has one key, and the keys are listed without repetition.
So the parts, one after the other, are the findings in another order, and the counts of the parts
add up to the number of findings. Files are keys too, if they are taken by their components.

## Main definitions

* `SplitsByRule`: groups that split findings by their rules

## Main results

* `perm_flatMap_filter`, `sum_countP_key`: a list is split by a key
* `splitsByRule_ruleGroups`: the groups of a report split its findings
* `Statistics.sum_severities`, `Statistics.sum_confidences`, `Statistics.sum_byCategory`,
  `Statistics.sum_byRule`: counts add up
* `Statistics.fileCount_eq`: files are counted by their components
-/

namespace AdLint

open Std

/-! ## Splitting a list by a key -/

section Split

variable {α κ : Type} [BEq κ] [LawfulBEq κ] (key : α → κ)

theorem perm_flatMap_filter_contains {keys : List κ} (hkeys : keys.Nodup) (xs : List α) :
    (keys.flatMap fun k => xs.filter fun x => key x == k).Perm
      (xs.filter fun x => keys.contains (key x)) := by
  induction hkeys with
  | nil => simp
  | @cons k keys hk _ ih =>
    rw [List.flatMap_cons]
    refine (ih.append_left _).trans ?_
    -- the elements with one of the keys are those with the first key and those with another one
    have hfirst : (xs.filter fun x => (k :: keys).contains (key x)).filter (fun x => key x == k) =
        xs.filter fun x => key x == k := by
      rw [List.filter_filter]
      refine List.filter_congr fun x _ => ?_
      by_cases hx : key x = k <;> simp [hx]
    have hothers :
        (xs.filter fun x => (k :: keys).contains (key x)).filter (fun x => !(key x == k)) =
        xs.filter fun x => keys.contains (key x) := by
      rw [List.filter_filter]
      refine List.filter_congr fun x _ => ?_
      by_cases hx : key x = k
      · have hnot : k ∉ keys := fun hmem => hk k hmem rfl
        simp [hx, hnot]
      · simp [hx]
    rw [← hfirst, ← hothers]
    exact List.filter_append_perm _ _

/-- **A list is split by a key**: its parts, one after the other, are the list in another order. -/
theorem perm_flatMap_filter {keys : List κ} (hkeys : keys.Nodup) {xs : List α}
    (hall : ∀ x ∈ xs, key x ∈ keys) :
    (keys.flatMap fun k => xs.filter fun x => key x == k).Perm xs := by
  have hself : xs.filter (fun x => keys.contains (key x)) = xs :=
    List.filter_eq_self.mpr fun x hx => by simpa using hall x hx
  exact (perm_flatMap_filter_contains key hkeys xs).trans (List.Perm.of_eq hself)

/-- The sizes of the parts add up. -/
theorem sum_countP_key {keys : List κ} (hkeys : keys.Nodup) {xs : List α}
    (hall : ∀ x ∈ xs, key x ∈ keys) :
    (keys.map fun k => xs.countP fun x => key x == k).sum = xs.length := by
  rw [← (perm_flatMap_filter key hkeys hall).length_eq, List.length_flatMap]
  simp only [List.countP_eq_length_filter]

end Split

/-- Entries that count nothing do not add to a sum. -/
theorem sum_filter_ne_zero {α : Type} (entries : List (α × Nat)) :
    ((entries.filter fun e => e.2 != 0).map Prod.snd).sum = (entries.map Prod.snd).sum := by
  induction entries with
  | nil => rfl
  | cons e entries ih =>
    by_cases he : e.2 = 0 <;> simp [he, ih]

/-- Of every path, one with the same components is kept. -/
theorem exists_components_mem_distinctBy {ps : List Path} {p : Path} (hp : p ∈ ps) :
    ∃ q ∈ distinctBy Path.same ps, q.components = p.components := by
  obtain ⟨q, hq, hsame⟩ := exists_mem_distinctBy Path.same Path.same_refl
    (fun a b c hab hbc => Path.same_iff.mpr ((Path.same_iff.mp hab).trans (Path.same_iff.mp hbc)))
      hp
  exact ⟨q, hq, Path.same_iff.mp hsame⟩

/-! ## Rules and categories -/

theorem Rule.mem_all (rule : Rule) : rule ∈ all := by cases rule <;> decide

theorem Rule.nodup_all : all.Nodup := by decide

theorem Rule.rank_pairwise_all : all.Pairwise fun a b => a.rank < b.rank := by decide

theorem Category.mem_all (c : Category) : c ∈ all := by cases c <;> decide

theorem Category.nodup_all : all.Nodup := by decide

/-! ## Groups -/

/-- The order of groups by size, larger ones first. -/
def RuleGroup.compareCount (g h : RuleGroup) : Ordering := Ord.compare h.count g.count

instance : TransCmp RuleGroup.compareCount :=
  have : TransCmp fun m n : Nat => Ord.compare n m := TransCmp.opposite
  transCmp_on (fun m n : Nat => Ord.compare n m) RuleGroup.count

/-- The group of a rule. -/
def ruleGroup (findings : List Finding) (rule : Rule) : RuleGroup :=
  ⟨rule, findings.filter fun f => f.rule == rule⟩

/-- The groups of the rules that have findings, in the order of the rules. -/
def occurringGroups (findings : List Finding) : List RuleGroup :=
  (Rule.all.map (ruleGroup findings)).filter fun g => !g.findings.isEmpty

theorem ruleGroups_isStableSort (findings : List Finding) :
    IsStableSort RuleGroup.compareCount (occurringGroups findings) (ruleGroups findings) := by
  have hle : (fun g h : RuleGroup => decide (h.count ≤ g.count)) =
      fun g h => (g.compareCount h).isLE := by
    funext g h
    rw [Bool.eq_iff_iff, decide_eq_true_iff, RuleGroup.compareCount, Nat.isLE_compare]
  have hgroups : ruleGroups findings =
      (occurringGroups findings).mergeSort fun g h => (g.compareCount h).isLE := by
    rw [← hle]
    rfl
  rw [hgroups]
  exact IsStableSort.mergeSort _

/-- Groups that **split findings by their rules**: one for each rule that occurs, with all findings
of the rule in their order, larger groups first and groups of one size in the order of the rules. -/
structure SplitsByRule (findings : List Finding) (groups : List RuleGroup) : Prop where
  perm : (groups.flatMap RuleGroup.findings).Perm findings
  distinct : (groups.map RuleGroup.rule).Nodup
  occurs : ∀ rule, rule ∈ groups.map RuleGroup.rule ↔ ∃ f ∈ findings, f.rule = rule
  nonempty : ∀ g ∈ groups, g.findings ≠ []
  part : ∀ g ∈ groups, g.findings = findings.filter fun f => f.rule == g.rule
  ordered : groups.Pairwise fun g h =>
    h.count < g.count ∨ h.count = g.count ∧ g.rule.rank < h.rule.rank

section Groups

variable {findings : List Finding} {g : RuleGroup}

theorem mem_ruleGroups_iff :
    g ∈ ruleGroups findings ↔ g = ruleGroup findings g.rule ∧ g.findings ≠ [] := by
  rw [(ruleGroups_isStableSort findings).perm.mem_iff, occurringGroups, List.mem_filter,
    List.mem_map]
  constructor
  · rintro ⟨⟨rule, -, rfl⟩, hne⟩
    exact ⟨rfl, by simpa using hne⟩
  · rintro ⟨hg, hne⟩
    exact ⟨⟨g.rule, Rule.mem_all _, hg.symm⟩, by simpa using hne⟩

theorem rule_mem_ruleGroups_iff {rule : Rule} :
    rule ∈ (ruleGroups findings).map RuleGroup.rule ↔ ∃ f ∈ findings, f.rule = rule := by
  rw [List.mem_map]
  constructor
  · rintro ⟨g, hg, rfl⟩
    obtain ⟨hpart, hne⟩ := mem_ruleGroups_iff.mp hg
    obtain ⟨f, hf⟩ := List.exists_mem_of_ne_nil _ hne
    rw [hpart] at hf
    obtain ⟨hmem, hrule⟩ := List.mem_filter.mp hf
    exact ⟨f, hmem, beq_iff_eq.mp hrule⟩
  · rintro ⟨f, hf, rfl⟩
    refine ⟨ruleGroup findings f.rule, mem_ruleGroups_iff.mpr ⟨rfl, ?_⟩, rfl⟩
    exact List.ne_nil_of_mem (List.mem_filter.mpr ⟨hf, beq_self_eq_true _⟩)

theorem pairwise_occurringGroups (findings : List Finding) :
    (occurringGroups findings).Pairwise fun g h => g.rule.rank < h.rule.rank := by
  have hall : (Rule.all.map (ruleGroup findings)).Pairwise fun g h => g.rule.rank < h.rule.rank :=
    List.pairwise_map.mpr Rule.rank_pairwise_all
  exact hall.filter _

theorem flatMap_occurringGroups (findings : List Finding) :
    (occurringGroups findings).flatMap RuleGroup.findings =
      Rule.all.flatMap fun rule => findings.filter fun f => f.rule == rule := by
  rw [occurringGroups, flatMap_filter_of_eq_nil fun g _ hg => by simpa using hg, List.flatMap_map]
  rfl

/-- **The groups of a report split its findings by their rules.** -/
theorem splitsByRule_ruleGroups (findings : List Finding) :
    SplitsByRule findings (ruleGroups findings) where
  perm := by
    refine ((ruleGroups_isStableSort findings).perm.flatMap_right _).trans ?_
    rw [flatMap_occurringGroups]
    exact perm_flatMap_filter (fun f : Finding => f.rule) Rule.nodup_all fun f _ =>
      Rule.mem_all f.rule
  distinct := by
    have hperm := (ruleGroups_isStableSort findings).perm.map RuleGroup.rule
    refine hperm.nodup_iff.mpr (List.pairwise_map.mpr ?_)
    exact (pairwise_occurringGroups findings).imp fun {g h} hlt heq => by rw [heq] at hlt; omega
  occurs _ := rule_mem_ruleGroups_iff
  nonempty _ hg := (mem_ruleGroups_iff.mp hg).2
  part _ hg := congrArg RuleGroup.findings (mem_ruleGroups_iff.mp hg).1
  ordered := by
    refine ((ruleGroups_isStableSort findings).pairwise (pairwise_occurringGroups findings)).imp ?_
    intro g h hgh
    rw [RuleGroup.compareCount, Nat.compare_eq_lt, Nat.compare_eq_eq] at hgh
    exact hgh

end Groups

/-! ## Counts -/

namespace Statistics

variable (s : Statistics)

theorem sum_severities :
    s.ofSeverity .error + s.ofSeverity .warning + s.ofSeverity .info = s.total := by
  have hsum : ([.error, .warning, .info].map s.ofSeverity).sum = s.total :=
    sum_countP_key (fun f : Finding => f.severity) (by decide) fun f _ => by cases f.severity <;>
      decide
  simpa [Nat.add_assoc] using hsum

theorem sum_confidences :
    s.ofConfidence .high + s.ofConfidence .medium + s.ofConfidence .low = s.total := by
  have hsum : ([.high, .medium, .low].map s.ofConfidence).sum = s.total :=
    sum_countP_key (fun f : Finding => f.confidence) (by decide) fun f _ => by
      cases f.confidence <;> decide
  simpa [Nat.add_assoc] using hsum

theorem sum_byCategory : (s.byCategory.map Prod.snd).sum = s.total := by
  rw [byCategory, sum_filter_ne_zero, List.map_map]
  exact sum_countP_key (fun f : Finding => f.rule.category) Category.nodup_all
    fun f _ => Category.mem_all f.rule.category

theorem sum_byRule : (s.byRule.map Prod.snd).sum = s.total := by
  rw [byRule, sum_filter_ne_zero, List.map_map]
  exact sum_countP_key (fun f : Finding => f.rule) Rule.nodup_all fun f _ => Rule.mem_all f.rule

/-- Files are counted by their components. -/
theorem fileCount_eq :
    s.fileCount = (s.findings.map fun f => f.location.file.components).dedup.length := by
  rw [fileCount, ← List.length_map Path.components]
  refine ((List.perm_ext_iff_of_nodup ?_ (List.nodup_dedup _)).mpr fun components => ?_).length_eq
  · refine List.pairwise_map.mpr ((pairwise_distinctBy Path.same _).imp fun {p q} hne heq => ?_)
    rw [Path.same_iff.mpr heq] at hne
    cases hne
  · rw [List.mem_dedup, List.mem_map, List.mem_map]
    constructor
    · rintro ⟨p, hp, rfl⟩
      obtain ⟨f, hf, rfl⟩ := List.mem_map.mp ((distinctBy_sublist Path.same _).subset hp)
      exact ⟨f, hf, rfl⟩
    · rintro ⟨f, hf, rfl⟩
      exact exists_components_mem_distinctBy (List.mem_map.mpr ⟨f, hf, rfl⟩)

end Statistics

end AdLint
