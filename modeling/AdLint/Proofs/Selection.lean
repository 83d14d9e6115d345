import AdLint.Analysis
import AdLint.Proofs.Prelude
import AdLint.Proofs.RoomScan

/-!
# Selecting rules

An analysis skips a check of which no rule runs. That is sound because a check reports only the
rules it lists. Without the skipping, an analysis is a plain pipeline: the findings of all checks,
those of rules that run and that are not suppressed, with the severities of the settings, in a
stable sort. Sorting and the change of severities commute with a filter by rules, so choosing rules
only filters the result.

## Main definitions

* `keptFindings`: the findings that an analysis sorts, with no check skipped
* `Settings.withoutSelection`: the settings with no choice of rules

## Main results

* `Check.rule_mem`: a check reports only the rules it lists
* `analyze_isStableSort`: an analysis is the stable sort of the findings it keeps
* `analyze_eq_filter`: choosing rules filters the result
-/

namespace AdLint

open Std

/-! ## The rules of a check -/

namespace Check

variable {p : Project} {f : Finding}

theorem room_rule_mem {s : RoomSettings} (hf : f ∈ (room s).findings p) :
    f.rule ∈ (room s).rules := by
  have hrules : (room s).rules =
      Database.rules ++ [.databaseUnregistered, .registrationMissing] := rfl
  rw [hrules, List.mem_append]
  rcases RoomScan.rule_mem_or_mem_verified hf with hrule | hf
  · exact .inl hrule
  · obtain ⟨rule, hmem, heq⟩ := RoomScan.exists_rule_verified p s (RoomScan.tracked p s)
    rw [heq f hf]
    exact .inr hmem

theorem restrictedApi_rule_eq {api : RestrictedApi} (hf : f ∈ api.findings p) :
    f.rule = api.rule := by
  obtain ⟨call, -, hcall⟩ := List.mem_filterMap.mp hf
  unfold RestrictedApi.finding? at hcall
  split at hcall
  · simp at hcall
  · obtain ⟨resolution, -, hcall⟩ := Option.bind_eq_some_iff.mp hcall
    dsimp only at hcall
    split at hcall
    · simp at hcall
    · rw [← Option.some.inj hcall]
      rfl

theorem jobService_rule_eq (hf : f ∈ JobService.findings p) : f.rule = .eagerJobServiceField := by
  obtain ⟨service, -, hf⟩ := List.mem_flatMap.mp hf
  obtain ⟨field, -, hfield⟩ := List.mem_filterMap.mp hf
  obtain ⟨value, -, hvalue⟩ := Option.bind_eq_some_iff.mp hfield
  dsimp only at hvalue
  split at hvalue
  · simp at hvalue
  · rw [← Option.some.inj hvalue]
    rfl

theorem fileNaming_rule_eq {s : FileNamingSettings} (hf : f ∈ FileNaming.findings s p) :
    f.rule = .unprefixedFile := by
  unfold FileNaming.findings at hf
  split at hf
  · obtain ⟨call, -, hcall⟩ := List.mem_filterMap.mp hf
    obtain ⟨argument, -, hcall⟩ := Option.bind_eq_some_iff.mp hcall
    obtain ⟨name, -, hname⟩ := Option.bind_eq_some_iff.mp hcall
    split at hname
    · simp at hname
    · rw [← Option.some.inj hname]
      rfl
  · simp at hf

theorem manifestProcess_rule_eq {s : ManifestSettings} (hf : f ∈ ManifestProcess.findings s p) :
    f.rule = .foreignProcess := by
  obtain ⟨component, -, hcomponent⟩ := List.mem_filterMap.mp hf
  obtain ⟨name, -, hname⟩ := Option.bind_eq_some_iff.mp hcomponent
  dsimp only at hname
  split at hname
  · simp at hname
  · split at hname
    · split at hname
      · simp at hname
      · rw [← Option.some.inj hname]
        rfl
    · rw [← Option.some.inj hname]
      rfl

/-- **A check reports only the rules it lists.** -/
theorem rule_mem {s : Settings} {check : Check} (hcheck : check ∈ all s)
    (hf : f ∈ check.findings p) : f.rule ∈ check.rules := by
  simp only [all, List.mem_cons, List.not_mem_nil, or_false] at hcheck
  rcases hcheck with rfl | rfl | rfl | rfl | rfl | rfl
  · exact room_rule_mem hf
  · exact List.mem_singleton.mpr (restrictedApi_rule_eq hf)
  · exact List.mem_singleton.mpr (restrictedApi_rule_eq hf)
  · exact List.mem_singleton.mpr (jobService_rule_eq hf)
  · exact List.mem_singleton.mpr (fileNaming_rule_eq hf)
  · exact List.mem_singleton.mpr (manifestProcess_rule_eq hf)

end Check

/-! ## The pipeline without skipping -/

/-- The findings of all checks. -/
def foundBy (s : Settings) (p : Project) : List Finding :=
  (Check.all s).flatMap fun check => check.findings p

/-- The findings that an analysis sorts: of all findings, those of rules that run and that the
source does not suppress, with the severities of the settings. -/
def keptFindings (s : Settings) (p : Project) : List Finding :=
  ((foundBy s p).filter fun f => s.enables f.rule && !isSuppressed p f).map (Finding.withSettings s)

/-- An analysis sorts the findings of all checks: what it skips would not be kept. -/
theorem analyze_eq_mergeSort (s : Settings) (p : Project) :
    analyze s p = (keptFindings s p).mergeSort fun a b => (a.compare b).isLE := by
  unfold analyze keptFindings foundBy
  dsimp only
  rw [List.filter_flatMap, List.filter_flatMap, flatMap_filter_of_eq_nil]
  -- a check is skipped if none of its rules runs, and it reports no other rule
  intro check hcheck hskipped
  refine List.filter_eq_nil_iff.mpr fun f hf => ?_
  have hdisabled : s.enables f.rule = false := by
    rw [List.any_eq_false] at hskipped
    simpa using hskipped f.rule (Check.rule_mem hcheck hf)
  simp [hdisabled]

theorem analyze_isStableSort (s : Settings) (p : Project) :
    IsStableSort Finding.compare (keptFindings s p) (analyze s p) := by
  rw [analyze_eq_mergeSort]
  exact IsStableSort.mergeSort _

/-! ## The choice of rules -/

/-- The settings with no choice of rules: every rule runs. -/
def Settings.withoutSelection (s : Settings) : Settings :=
  { s with rules := { s.rules with disabled := [], enabled := [] } }

@[simp] theorem Settings.enables_withoutSelection (s : Settings) (rule : Rule) :
    s.withoutSelection.enables rule = true := rfl

@[simp] theorem foundBy_withoutSelection (s : Settings) (p : Project) :
    foundBy s.withoutSelection p = foundBy s p := rfl

@[simp] theorem withSettings_withoutSelection (s : Settings) :
    Finding.withSettings s.withoutSelection = Finding.withSettings s := rfl

theorem keptFindings_eq_filter (s : Settings) (p : Project) :
    keptFindings s p = (keptFindings s.withoutSelection p).filter fun f => s.enables f.rule := by
  -- severities leave the rule of a finding alone, so the filter passes through them
  simp only [keptFindings, List.filter_map, List.filter_filter, foundBy_withoutSelection,
    withSettings_withoutSelection, Settings.enables_withoutSelection, Bool.true_and]
  rfl

/-- **Choosing rules filters the result** of the analysis with every rule. -/
theorem analyze_eq_filter (s : Settings) (p : Project) :
    analyze s p = (analyze s.withoutSelection p).filter fun f => s.enables f.rule := by
  rw [analyze_eq_mergeSort, analyze_eq_mergeSort, keptFindings_eq_filter]
  exact (filter_mergeSort _ _).symm

end AdLint
