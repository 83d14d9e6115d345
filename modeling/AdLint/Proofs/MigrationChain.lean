import AdLint.Room.MigrationPath
import Mathlib.Data.List.Perm.Subperm

/-!
# Migration chains

The walk over declared steps decides a question about the steps as a multiset: are they the chain
from version 1 to the target? The steps are sorted by their starts alone, so that steps with one
start keep the order in which they were declared, and the walk stops at the first one that does not
fit. Here its answers are read back to the steps as declared. A chain has one step for each start,
so a permutation of a chain is sorted to the chain, and the version that is reached and the defects
that name it depend on the multiset only. Which step is named as unexpected may depend on the order,
but what is said about it does not.

The versions are machine words in practice. A walk in machine words that stops when its counter
would leave them never does so, since it counts the steps it has passed and memory does not hold
that many.

## Main definitions

* `chainFrom`: the steps that lead some versions up from a version
* `WordStep`, `StoredSteps`: a step between machine words, and steps that lie in memory
* `wordDefect?`: the check in machine words, which fails when the counter leaves them

## Main results

* `follow_eq_ok_iff`, `follow_eq_error_iff`: what the walk answers
* `sorted_eq_chain_iff`: sorting gives a chain exactly if the steps are its permutation
* `isComplete_iff_perm_chain`: the check accepts the permutations of the chain, and no counter
  overflows
* `defect?_exact`: what the reported defects say about the declared steps
-/

namespace AdLint.MigrationPath

/-! ## Chains -/

/-- The steps that lead `n` versions up from a version. -/
def chainFrom (version : Int) (n : Nat) : List MigrationStep :=
  (List.range n).map fun (i : Nat) => stepFrom (version + i)

theorem chain_eq_chainFrom (n : Nat) : chain n = chainFrom 1 n := by
  unfold chain chainFrom
  refine List.map_congr_left fun i _ => ?_
  rw [Int.natCast_succ, Int.add_comm]

@[simp] theorem chainFrom_zero (version : Int) : chainFrom version 0 = [] := rfl

theorem chainFrom_succ (version : Int) (n : Nat) :
    chainFrom version (n + 1) = stepFrom version :: chainFrom (version + 1) n := by
  simp only [chainFrom, List.range_succ_eq_map, List.map_cons, List.map_map, Int.natCast_zero,
    Int.add_zero, List.cons.injEq, true_and]
  refine List.map_congr_left fun i _ => ?_
  simp only [Function.comp_apply, Nat.succ_eq_add_one, Int.natCast_add, Int.natCast_one]
  rw [Int.add_assoc, Int.add_comm 1]

theorem chain_succ (n : Nat) : chain (n + 1) = chain n ++ [stepFrom (n + 1 : Nat)] := by
  simp [chain, List.range_succ]

theorem mem_chain_iff {n : Nat} {step : MigrationStep} :
    step ∈ chain n ↔ 1 ≤ step.source ∧ step.source ≤ n ∧ step = stepFrom step.source := by
  constructor
  · intro h
    obtain ⟨i, hi, rfl⟩ := List.mem_map.mp h
    have hlt := List.mem_range.mp hi
    refine ⟨?_, ?_, rfl⟩ <;> simp only [stepFrom] <;> omega
  · rintro ⟨hpos, hle, hstep⟩
    refine List.mem_map.mpr ⟨(step.source - 1).toNat, List.mem_range.mpr (by omega), ?_⟩
    have hsource : (((step.source - 1).toNat + 1 : Nat) : Int) = step.source := by omega
    rw [hsource, ← hstep]

/-! ## Sorting -/

theorem sorted_perm (steps : List MigrationStep) : (sorted steps).Perm steps :=
  List.mergeSort_perm steps _

theorem pairwise_sorted (steps : List MigrationStep) :
    (sorted steps).Pairwise fun a b => a.source ≤ b.source := by
  have hsorted : (sorted steps).Pairwise fun a b => decide (a.source ≤ b.source) = true := by
    apply List.pairwise_mergeSort
    · intro a b c hab hbc
      simp only [decide_eq_true_eq] at hab hbc ⊢
      exact Int.le_trans hab hbc
    · intro a b
      simp only [Bool.or_eq_true, decide_eq_true_eq]
      exact Int.le_total a.source b.source
  exact hsorted.imp fun h => by simpa using h

theorem pairwise_chain (n : Nat) : (chain n).Pairwise fun a b => a.source ≤ b.source := by
  refine List.pairwise_map.mpr (List.pairwise_lt_range.imp fun h => ?_)
  simp only [stepFrom]
  omega

/-- A chain has one step for each start, so only the chain itself is sorted to it. -/
theorem sorted_eq_chain_iff {steps : List MigrationStep} {n : Nat} :
    sorted steps = chain n ↔ steps.Perm (chain n) := by
  constructor
  · intro h
    rw [← h]
    exact (sorted_perm steps).symm
  · intro h
    have hperm := (sorted_perm steps).trans h
    -- the order is by starts alone, and antisymmetric only between steps of the chain
    refine List.Perm.eq_of_pairwise (fun a b ha hb hab hba => ?_) (pairwise_sorted steps)
      (pairwise_chain n) hperm
    have hsource : a.source = b.source := Int.le_antisymm hab hba
    rw [(mem_chain_iff.mp (hperm.subset ha)).2.2, (mem_chain_iff.mp hb).2.2, hsource]

/-! ## The walk -/

/-- A walk that passes all steps has followed a chain. -/
theorem follow_eq_ok_iff {version reached : Int} {steps : List MigrationStep} :
    follow version steps = .ok reached ↔
      ∃ n : Nat, reached = version + n ∧ steps = chainFrom version n := by
  -- over the steps, for every version at which the walk may stand
  induction steps generalizing version with
  | nil =>
    simp only [follow, Except.ok.injEq]
    constructor
    · rintro rfl
      exact ⟨0, by simp, rfl⟩
    · rintro ⟨n, rfl, hnil⟩
      cases n with
      | zero => simp
      | succ n => simp [chainFrom_succ] at hnil
  | cons step rest ih =>
    rw [follow]
    by_cases hstep : step = stepFrom version
    · rw [if_pos (by simpa using hstep), ih]
      constructor
      · rintro ⟨n, rfl, rfl⟩
        exact ⟨n + 1, by omega, by rw [chainFrom_succ, hstep]⟩
      · rintro ⟨n, rfl, hsteps⟩
        cases n with
        | zero => cases hsteps
        | succ n =>
          rw [chainFrom_succ] at hsteps
          exact ⟨n, by omega, (List.cons.inj hsteps).2⟩
    · rw [if_neg (by simpa using hstep)]
      constructor
      · intro h
        cases h
      · rintro ⟨n, -, hsteps⟩
        cases n with
        | zero => cases hsteps
        | succ n =>
          rw [chainFrom_succ] at hsteps
          exact absurd (List.cons.inj hsteps).1 hstep

/-- A walk that stops has followed a chain up to the step that it names. -/
theorem follow_eq_error_iff {version : Int} {steps : List MigrationStep} {defect : PathDefect} :
    follow version steps = .error defect ↔
      ∃ (n : Nat) (step : MigrationStep) (rest : List MigrationStep),
        steps = chainFrom version n ++ step :: rest ∧ step ≠ stepFrom (version + n) ∧
          defect = .unexpectedStep (version + n) step := by
  induction steps generalizing version with
  | nil => simp [follow]
  | cons first others ih =>
    rw [follow]
    by_cases hfirst : first = stepFrom version
    · rw [if_pos (by simpa using hfirst), ih]
      constructor
      · rintro ⟨n, step, rest, rfl, hne, rfl⟩
        have hversion : version + 1 + n = version + (n + 1 : Nat) := by omega
        rw [hversion] at hne ⊢
        exact ⟨n + 1, step, rest, by rw [chainFrom_succ, hfirst, List.cons_append], hne, rfl⟩
      · rintro ⟨n, step, rest, hsteps, hne, rfl⟩
        cases n with
        | zero =>
          -- the step that is named would be the first one, which fits
          rw [chainFrom_zero, List.nil_append, List.cons.injEq] at hsteps
          rw [Int.natCast_zero, Int.add_zero] at hne
          exact absurd (hsteps.1.symm.trans hfirst) hne
        | succ n =>
          rw [chainFrom_succ, List.cons_append, List.cons.injEq] at hsteps
          have hversion : version + (n + 1 : Nat) = version + 1 + n := by omega
          rw [hversion] at hne ⊢
          exact ⟨n, step, rest, hsteps.2, hne, rfl⟩
    · rw [if_neg (by simpa using hfirst)]
      constructor
      · intro h
        cases h
        exact ⟨0, first, others, rfl, by simpa using hfirst, by simp⟩
      · rintro ⟨n, step, rest, hsteps, hne, rfl⟩
        cases n with
        | zero =>
          rw [chainFrom_zero, List.nil_append, List.cons.injEq] at hsteps
          simp [hsteps.1]
        | succ n =>
          rw [chainFrom_succ, List.cons_append, List.cons.injEq] at hsteps
          exact absurd hsteps.1 hfirst

section Defects

variable {steps : List MigrationStep} {target : Int}

/-- The version that the steps reach is that of the chain of which they are a permutation. -/
theorem follow_sorted_eq_ok_iff {reached : Int} :
    follow 1 (sorted steps) = .ok reached ↔
      1 ≤ reached ∧ steps.Perm (chain (reached - 1).toNat) := by
  rw [follow_eq_ok_iff]
  constructor
  · rintro ⟨n, rfl, hsorted⟩
    have hn : ((1 : Int) + n - 1).toNat = n := by omega
    rw [← chain_eq_chainFrom, sorted_eq_chain_iff] at hsorted
    exact ⟨by omega, by rwa [hn]⟩
  · rintro ⟨hpos, hperm⟩
    exact ⟨(reached - 1).toNat, by omega, by rwa [← chain_eq_chainFrom, sorted_eq_chain_iff]⟩

theorem defect?_eq_none_iff :
    defect? steps target = none ↔ follow 1 (sorted steps) = .ok target := by
  unfold defect?
  cases follow 1 (sorted steps) with
  | error defect => simp
  | ok reached =>
    simp only [Except.ok.injEq]
    split
    · simp only [reduceCtorEq, false_iff]
      omega
    · split
      · simp only [reduceCtorEq, false_iff]
        omega
      · simp only [true_iff]
        omega

/-- Nothing is wrong with the permutations of the chain to the target, and with nothing else. -/
theorem defect?_eq_none_iff_perm :
    defect? steps target = none ↔ 1 ≤ target ∧ steps.Perm (chain (target - 1).toNat) := by
  rw [defect?_eq_none_iff, follow_sorted_eq_ok_iff]

theorem defect?_eq_endsEarly_iff {reached version : Int} :
    defect? steps target = some (.endsEarly reached version) ↔
      version = target ∧ reached < target ∧ follow 1 (sorted steps) = .ok reached := by
  unfold defect?
  cases hwalk : follow 1 (sorted steps) with
  | error defect =>
    obtain ⟨n, step, rest, -, -, rfl⟩ := follow_eq_error_iff.mp hwalk
    simp
  | ok last =>
    simp only [Except.ok.injEq]
    split
    · simp only [Option.some.injEq, PathDefect.endsEarly.injEq]
      omega
    · split
      · simp only [Option.some.injEq, reduceCtorEq, false_iff]
        omega
      · simp only [reduceCtorEq, false_iff]
        omega

theorem defect?_eq_overshoots_iff {reached version : Int} :
    defect? steps target = some (.overshoots reached version) ↔
      version = target ∧ target < reached ∧ follow 1 (sorted steps) = .ok reached := by
  unfold defect?
  cases hwalk : follow 1 (sorted steps) with
  | error defect =>
    obtain ⟨n, step, rest, -, -, rfl⟩ := follow_eq_error_iff.mp hwalk
    simp
  | ok last =>
    simp only [Except.ok.injEq]
    split
    · simp only [Option.some.injEq, reduceCtorEq, false_iff]
      omega
    · split
      · simp only [Option.some.injEq, PathDefect.overshoots.injEq]
        omega
      · simp only [reduceCtorEq, false_iff]
        omega

theorem defect?_eq_unexpectedStep_iff {expected : Int} {step : MigrationStep} :
    defect? steps target = some (.unexpectedStep expected step) ↔
      follow 1 (sorted steps) = .error (.unexpectedStep expected step) := by
  unfold defect?
  cases follow 1 (sorted steps) with
  | error defect => simp
  | ok reached =>
    simp only [reduceCtorEq, iff_false]
    split
    · simp
    · split <;> simp

/-- The steps are no permutation of a chain exactly if one of them is unexpected. -/
theorem exists_unexpectedStep_iff :
    (∃ expected step, defect? steps target = some (.unexpectedStep expected step)) ↔
      ∀ n, ¬ steps.Perm (chain n) := by
  simp only [defect?_eq_unexpectedStep_iff]
  constructor
  · rintro ⟨expected, step, hwalk⟩ n hperm
    have hok : follow 1 (sorted steps) = .ok (n + 1) :=
      follow_sorted_eq_ok_iff.mpr ⟨by omega, by simpa using hperm⟩
    rw [hwalk] at hok
    cases hok
  · intro hnone
    cases hwalk : follow 1 (sorted steps) with
    | ok reached => exact absurd (follow_sorted_eq_ok_iff.mp hwalk).2 (hnone _)
    | error defect =>
      obtain ⟨n, step, rest, -, -, rfl⟩ := follow_eq_error_iff.mp hwalk
      exact ⟨_, _, rfl⟩

/-- Steps that end early are, in any order, the chain up to the version that they reach. -/
theorem endsEarly_iff_perm {reached version : Int} :
    defect? steps target = some (.endsEarly reached version) ↔
      version = target ∧ 1 ≤ reached ∧ reached < target ∧
      steps.Perm (chain (reached - 1).toNat) := by
  rw [defect?_eq_endsEarly_iff, follow_sorted_eq_ok_iff]
  tauto

theorem overshoots_iff_perm {reached version : Int} :
    defect? steps target = some (.overshoots reached version) ↔
      version = target ∧ 1 ≤ reached ∧ target < reached ∧
      steps.Perm (chain (reached - 1).toNat) := by
  rw [defect?_eq_overshoots_iff, follow_sorted_eq_ok_iff]
  tauto

/-- Steps that end early lack the next one. -/
theorem stepFrom_not_mem_of_endsEarly {reached : Int}
    (h : defect? steps target = some (.endsEarly reached target)) : stepFrom reached ∉ steps := by
  obtain ⟨-, hpos, -, hperm⟩ := endsEarly_iff_perm.mp h
  intro hmem
  have hle := (mem_chain_iff.mp (hperm.subset hmem)).2.1
  simp only [stepFrom] at hle
  omega

/-- With the next step, steps that end early lead one version further. -/
theorem defect?_of_repaired {reached : Int} {repaired : List MigrationStep}
    (h : defect? steps target = some (.endsEarly reached target))
    (hrepaired : repaired.Perm (stepFrom reached :: steps)) :
    defect? repaired target =
      if reached + 1 = target then none else some (.endsEarly (reached + 1) target) := by
  obtain ⟨-, hpos, hlt, hperm⟩ := endsEarly_iff_perm.mp h
  have hchain : repaired.Perm (chain (reached + 1 - 1).toNat) := by
    have hnext : (reached + 1 - 1).toNat = (reached - 1).toNat + 1 := by omega
    have hlast : (((reached - 1).toNat + 1 : Nat) : Int) = reached := by omega
    rw [hnext, chain_succ, hlast]
    refine hrepaired.trans ((hperm.cons _).trans ?_)
    exact (List.perm_append_singleton _ _).symm
  have hwalk : follow 1 (sorted repaired) = .ok (reached + 1) :=
    follow_sorted_eq_ok_iff.mpr ⟨by omega, hchain⟩
  split
  · next heq => exact defect?_eq_none_iff.mpr (heq ▸ hwalk)
  · exact defect?_eq_endsEarly_iff.mpr ⟨rfl, by omega, hwalk⟩

/-- The message about steps that end early names the step that they lack. -/
theorem message_endsEarly {reached : Int} (h : reached < target) :
    (PathDefect.endsEarly reached target).message =
      s!"migrations stop at version {reached}; missing {(stepFrom reached).shown}" := by
  have hnext : min (reached + 1) target = reached + 1 := by omega
  unfold PathDefect.message
  dsimp only
  rw [hnext]
  simp only [MigrationStep.shown, stepFrom, ToString.toString, String.append_assoc]

/-- Without the chain up to the version that is expected, the step that is named comes first. -/
theorem of_unexpectedStep {expected : Int} {step : MigrationStep}
    (h : defect? steps target = some (.unexpectedStep expected step)) :
    1 ≤ expected ∧ step ≠ stepFrom expected ∧
      ∃ rest, steps.Perm (chain (expected - 1).toNat ++ step :: rest) ∧
        ∀ other ∈ rest, step.source ≤ other.source := by
  obtain ⟨n, found, rest, hsorted, hne, hdefect⟩ :=
    follow_eq_error_iff.mp (defect?_eq_unexpectedStep_iff.mp h)
  cases hdefect
  have hn : ((1 : Int) + n - 1).toNat = n := by omega
  rw [← chain_eq_chainFrom] at hsorted
  refine ⟨by omega, hne, rest, ?_, ?_⟩
  · rw [hn, ← hsorted]
    exact (sorted_perm steps).symm
  · have hpairwise := pairwise_sorted steps
    rw [hsorted, List.pairwise_append] at hpairwise
    exact (List.pairwise_cons.mp hpairwise.2.1).1

end Defects

/-- What is left of a list after some of its elements are taken out once each. -/
theorem diff_perm_of_perm_append {steps taken rest : List MigrationStep}
    (h : steps.Perm (taken ++ rest)) : (steps.diff taken).Perm rest := by
  have hcount : ∀ step ∈ taken, taken.count step ≤ steps.count step := by
    intro step _
    rw [h.count_eq step, List.count_append]
    omega
  have hback := List.subperm_append_diff_self_of_count_le hcount
  exact (List.perm_append_left_iff taken).mp (hback.trans h)

/-- **The defects that are reported are exact.** Steps that end early or overshoot are, in any
order, the chain up to the version that is named. A step that is unexpected is a first one, by its
start, among those that are left when the chain up to the version that is expected is taken away,
and some step is unexpected exactly if the steps are no chain in any order. Steps that end early
lack the step that the message names, and with it they lead one version further. -/
theorem defect?_exact (steps : List MigrationStep) (target : Int) :
    (∀ reached version, defect? steps target = some (.endsEarly reached version) ↔
        version = target ∧ 1 ≤ reached ∧ reached < target ∧
        steps.Perm (chain (reached - 1).toNat)) ∧
      (∀ reached version, defect? steps target = some (.overshoots reached version) ↔
        version = target ∧ 1 ≤ reached ∧ target < reached ∧
        steps.Perm (chain (reached - 1).toNat)) ∧
      (∀ expected step, defect? steps target = some (.unexpectedStep expected step) →
        1 ≤ expected ∧ (chain (expected - 1).toNat).Subperm steps ∧
          step ∈ steps.diff (chain (expected - 1).toNat) ∧
          (∀ other ∈ steps.diff (chain (expected - 1).toNat), step.source ≤ other.source) ∧
          step ≠ stepFrom expected) ∧
      ((∃ expected step, defect? steps target = some (.unexpectedStep expected step)) ↔
        ∀ n, ¬ steps.Perm (chain n)) ∧
      (∀ reached, defect? steps target = some (.endsEarly reached target) →
        (PathDefect.endsEarly reached target).message =
            s!"migrations stop at version {reached}; missing {(stepFrom reached).shown}" ∧
          stepFrom reached ∉ steps ∧
          ∀ repaired : List MigrationStep, repaired.Perm (stepFrom reached :: steps) →
            defect? repaired target =
              if reached + 1 = target then none else some (.endsEarly (reached + 1) target)) ∧
      ∀ reordered : List MigrationStep, reordered.Perm steps → ∀ reached version,
        (defect? reordered target = some (.endsEarly reached version) ↔
            defect? steps target = some (.endsEarly reached version)) ∧
          (defect? reordered target = some (.overshoots reached version) ↔
            defect? steps target = some (.overshoots reached version)) := by
  refine ⟨fun _ _ => endsEarly_iff_perm, fun _ _ => overshoots_iff_perm, ?_,
    exists_unexpectedStep_iff, ?_, ?_⟩
  · intro expected step h
    obtain ⟨hpos, hne, rest, hperm, hleast⟩ := of_unexpectedStep h
    -- what is left without the chain is the step that is named and those after it
    have hleft := diff_perm_of_perm_append hperm
    refine ⟨hpos, ?_, ?_, ?_, hne⟩
    · exact (List.sublist_append_left _ _).subperm.trans hperm.symm.subperm
    · exact hleft.symm.subset List.mem_cons_self
    · intro other hother
      rcases List.mem_cons.mp (hleft.subset hother) with rfl | hrest
      · exact Int.le_refl _
      · exact hleast other hrest
  · intro reached h
    have hlt := (endsEarly_iff_perm.mp h).2.2.1
    exact ⟨message_endsEarly hlt, stepFrom_not_mem_of_endsEarly h, fun _ => defect?_of_repaired h⟩
  · intro reordered hreordered reached version
    -- both conditions look at the steps only up to their order
    have hperm (n : Nat) : reordered.Perm (chain n) ↔ steps.Perm (chain n) :=
      ⟨hreordered.symm.trans, hreordered.trans⟩
    simp only [endsEarly_iff_perm, overshoots_iff_perm, hperm, and_self]

/-- Two steps that end early, declared in the wrong order, and three with one start, of which the
first one declared decides. -/
theorem defect?_exact_cases :
    defect? [⟨2, 3⟩, ⟨1, 2⟩] 4 = some (.endsEarly 3 4) ∧
      defect? [⟨2, 3⟩, ⟨3, 4⟩, ⟨1, 2⟩] 4 = none ∧
      defect? [⟨1, 2⟩, ⟨2, 3⟩] 4 = some (.endsEarly 3 4) ∧
      defect? [⟨1, 2⟩, ⟨1, 3⟩, ⟨1, 2⟩] 3 = some (.unexpectedStep 2 ⟨1, 3⟩) ∧
      (chain 1).Subperm [⟨1, 2⟩, ⟨1, 3⟩, ⟨1, 2⟩] := by
  have hearly : defect? [⟨2, 3⟩, ⟨1, 2⟩] 4 = some (.endsEarly 3 4) :=
    ((defect?_exact [⟨2, 3⟩, ⟨1, 2⟩] 4).1 3 4).mpr ⟨rfl, by decide, by decide, by decide⟩
  have hlater : defect? [⟨1, 2⟩, ⟨1, 3⟩, ⟨1, 2⟩] 3 = some (.unexpectedStep 2 ⟨1, 3⟩) := by
    rw [defect?_eq_unexpectedStep_iff, sorted, List.mergeSort_of_pairwise (by decide)]
    rfl
  obtain ⟨-, -, -, -, hrepair, hreorder⟩ := defect?_exact [⟨2, 3⟩, ⟨1, 2⟩] 4
  obtain ⟨-, -, hunexpected, -⟩ := defect?_exact [⟨1, 2⟩, ⟨1, 3⟩, ⟨1, 2⟩] 3
  refine ⟨hearly, ?_, ?_, hlater, (hunexpected 2 ⟨1, 3⟩ hlater).2.1⟩
  · exact (hrepair 3 hearly).2.2 [⟨2, 3⟩, ⟨3, 4⟩, ⟨1, 2⟩] (by decide)
  · exact ((hreorder [⟨1, 2⟩, ⟨2, 3⟩] (by decide) 3 4).1).mpr hearly

/-! ## The walk in machine words -/

/-- A step between versions that are machine words. -/
structure WordStep where
  source : Int64
  target : Int64
  deriving DecidableEq, Repr, Inhabited

/-- The step, with its versions as integers. -/
def WordStep.toStep (s : WordStep) : MigrationStep := ⟨s.source.toInt, s.target.toInt⟩

/-- Steps that lie in memory one after the other, with eight bytes for each version. No block of
memory takes `2 ^ 63` bytes. -/
structure StoredSteps where
  steps : List WordStep
  fits : 16 * steps.length < Nat.pow 2 63

/-- The next word, if there is one. -/
def nextWord? (version : Int64) : Option Int64 :=
  if version = Int64.maxValue then none else some (version + 1)

/-- Follows steps as `follow` does, with a machine word as its counter; `none` if the counter leaves
the machine words. The word after the counter is computed only for a step that starts at the
counter. -/
def followWords? (version : Int64) : List WordStep → Option (Except (Int64 × WordStep) Int64)
  | [] => some (.ok version)
  | step :: rest =>
    if step.source ≠ version then some (.error (version, step))
    else
      (nextWord? version).bind fun next =>
        if step.target ≠ next then some (.error (version, step)) else followWords? next rest

/-- The answer of a walk in machine words, with integers in it. -/
def answerOf : Except (Int64 × WordStep) Int64 → Except PathDefect Int
  | .ok reached => .ok reached.toInt
  | .error (version, step) => .error (.unexpectedStep version.toInt step.toStep)

/-- The check in machine words: the steps are sorted and followed, and the version that is reached
is compared with the target; `none` if the counter leaves the machine words. -/
def wordDefect? (steps : List WordStep) (target : Int64) : Option (Option PathDefect) :=
  (followWords? 1 (steps.mergeSort fun a b => a.source ≤ b.source)).map fun answer =>
    match answer with
    | .error (version, step) => some (.unexpectedStep version.toInt step.toStep)
    | .ok reached =>
      if reached < target then some (.endsEarly reached.toInt target.toInt)
      else if target < reached then some (.overshoots reached.toInt target.toInt)
      else none

theorem nextWord?_eq_some {version : Int64} (h : version.toInt < Int64.maxValue.toInt) :
    ∃ next, nextWord? version = some next ∧ next.toInt = version.toInt + 1 := by
  have hne : version ≠ Int64.maxValue := by
    rintro rfl
    exact Int.lt_irrefl _ h
  rw [Int64.toInt_maxValue] at h
  refine ⟨version + 1, if_neg hne, ?_⟩
  have hleast := Int64.le_toInt version
  rw [Int64.toInt_add, Int64.toInt_one]
  exact Int.bmod_eq_of_le (by omega) (by omega)

/-- The counter is at most as far from its start as there are steps, so it never leaves the machine
words if there is room for that many. -/
theorem followWords?_eq (version : Int64) (steps : List WordStep)
    (h : version.toInt + steps.length ≤ Int64.maxValue.toInt) :
    ∃ answer, followWords? version steps = some answer ∧
      follow version.toInt (steps.map WordStep.toStep) = answerOf answer := by
  induction steps generalizing version with
  | nil => exact ⟨.ok version, rfl, rfl⟩
  | cons step rest ih =>
    -- the counter grows by one and the steps shrink by one, so the room stays enough
    rw [List.length_cons] at h
    have hroom : version.toInt < Int64.maxValue.toInt := by omega
    obtain ⟨next, hnext, hvalue⟩ := nextWord?_eq_some hroom
    rw [followWords?, List.map_cons, follow]
    by_cases hsource : step.source = version
    · rw [if_neg (not_not.mpr hsource), hnext, Option.bind_some]
      by_cases htarget : step.target = next
      · rw [if_neg (not_not.mpr htarget), if_pos, ← hvalue]
        · exact ih next (by omega)
        · simp [WordStep.toStep, stepFrom, hsource, htarget, hvalue]
      · rw [if_pos htarget, if_neg]
        · exact ⟨_, rfl, rfl⟩
        · simp only [WordStep.toStep, stepFrom, beq_iff_eq, MigrationStep.mk.injEq,
            ← hvalue, not_and]
          exact fun _ h => htarget (Int64.toInt_inj.mp h)
    · rw [if_pos hsource, if_neg]
      · exact ⟨_, rfl, rfl⟩
      · simp only [WordStep.toStep, stepFrom, beq_iff_eq, MigrationStep.mk.injEq, not_and]
        exact fun h => absurd (Int64.toInt_inj.mp h) hsource

/-- In machine words steps are sorted as they are with integers. -/
theorem map_toStep_mergeSort (steps : List WordStep) :
    (steps.mergeSort fun a b => a.source ≤ b.source).map WordStep.toStep =
      sorted (steps.map WordStep.toStep) := by
  refine List.map_mergeSort fun a _ b _ => ?_
  exact decide_eq_decide.mpr Int64.le_iff_toInt_le

/-- The check in machine words answers, and as the check with integers does. -/
theorem wordDefect?_eq (stored : StoredSteps) (target : Int64) :
    wordDefect? stored.steps target =
      some (defect? (stored.steps.map WordStep.toStep) target.toInt) := by
  have hfits := stored.fits
  rw [Nat.pow_eq] at hfits
  obtain ⟨answer, hwords, hwalk⟩ :=
    followWords?_eq 1 (stored.steps.mergeSort fun a b => a.source ≤ b.source) (by
      rw [List.length_mergeSort, Int64.toInt_one, Int64.toInt_maxValue]
      omega)
  rw [map_toStep_mergeSort, Int64.toInt_one] at hwalk
  unfold wordDefect? defect?
  rw [hwords, hwalk, Option.map_some]
  cases answer with
  | error found => rfl
  | ok reached => simp only [answerOf, Int64.lt_iff_toInt_lt]

/-- **The check accepts exactly the permutations of the chain to the target,** which has to be a
version. So the order of the steps does not matter, and the check in machine words, which stops if
its counter overflows, always answers, and as the check with integers does. -/
theorem isComplete_iff_perm_chain :
    (∀ (steps : List MigrationStep) (target : Int),
        isComplete steps target = true ↔ 1 ≤ target ∧ steps.Perm (chain (target - 1).toNat)) ∧
      (∀ (steps reordered : List MigrationStep) (target : Int), steps.Perm reordered →
        isComplete steps target = isComplete reordered target) ∧
      ∀ (stored : StoredSteps) (target : Int64),
        wordDefect? stored.steps target =
          some (defect? (stored.steps.map WordStep.toStep) target.toInt) := by
  have hperm (steps : List MigrationStep) (target : Int) :
      isComplete steps target = true ↔ 1 ≤ target ∧ steps.Perm (chain (target - 1).toNat) := by
    rw [isComplete, Option.isNone_iff_eq_none, defect?_eq_none_iff, follow_sorted_eq_ok_iff]
  refine ⟨hperm, ?_, wordDefect?_eq⟩
  intro steps reordered target h
  rw [Bool.eq_iff_iff, hperm, hperm]
  exact and_congr_right fun _ => ⟨h.symm.trans, h.trans⟩

theorem isComplete_iff_perm_chain_reversed :
    isComplete [⟨3, 4⟩, ⟨2, 3⟩, ⟨1, 2⟩] 4 = true ∧
      isComplete [⟨2, 3⟩, ⟨3, 4⟩, ⟨1, 2⟩] 4 = isComplete [⟨3, 4⟩, ⟨2, 3⟩, ⟨1, 2⟩] 4 :=
  ⟨(isComplete_iff_perm_chain.1 [⟨3, 4⟩, ⟨2, 3⟩, ⟨1, 2⟩] 4).mpr (by decide),
    isComplete_iff_perm_chain.2.1 [⟨2, 3⟩, ⟨3, 4⟩, ⟨1, 2⟩] [⟨3, 4⟩, ⟨2, 3⟩, ⟨1, 2⟩] 4 (by decide)⟩

end AdLint.MigrationPath
