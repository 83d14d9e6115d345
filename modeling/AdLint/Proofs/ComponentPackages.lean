import AdLint.Check.ManifestProcess
import AdLint.Proofs.ManifestElements

/-!
# Components under a package

The check of processes is for the components under one package. A class lies under a package if a
dot follows the package in its name. The check compares texts, and asks only that the name begin
with that of the package. So it also reports a component of another package whose name merely starts
with the same characters, and it reports all of them.

A name that a manifest completes with its own package is safe, if that package is the one of the
check or lies under it: what is added begins with a dot.

## Main definitions

* `LiesUnder`, `SharesStart`: the two ways in which a name can begin with that of a package
* `Misplaced`: a component that does not run where it must
* `reportOf`: what is reported about such a component

## Main results

* `beginsWith_iff_liesUnder_or_sharesStart`: a name begins with that of a package in these two ways
* `finding?_eq_some_iff`: which components are reported
* `reported_under_or_beside_package`: what is reported of a project
-/

namespace AdLint.ManifestProcess

variable {s : ManifestSettings} {c : ManifestComponent} {package name : String}

/-! ## Names that begin with that of a package -/

/-- A class lies under a package: a dot follows the package in its name. -/
def LiesUnder (package name : String) : Prop := ∃ rest, name = package ++ "." ++ rest

/-- A name starts with the characters of a package and goes on otherwise than with a dot, or not at
all. -/
def SharesStart (package name : String) : Prop :=
  ∃ rest, name = package ++ rest ∧ rest.toList.head? ≠ some '.'

theorem beginsWith_iff_liesUnder_or_sharesStart :
    Text.beginsWith name package = true ↔ LiesUnder package name ∨ SharesStart package name := by
  rw [Manifest.beginsWith_iff]
  constructor
  · rintro ⟨rest, rfl⟩
    by_cases hdot : rest.toList.head? = some '.'
    · left
      obtain ⟨more, hmore⟩ := List.head?_eq_some_iff.mp hdot
      refine ⟨String.ofList more, String.toList_injective ?_⟩
      simp [hmore]
    · exact .inr ⟨rest, rfl, hdot⟩
  · rintro (⟨rest, rfl⟩ | ⟨rest, rfl, -⟩)
    · exact ⟨"." ++ rest, String.append_assoc⟩
    · exact ⟨rest, rfl⟩

/-- No name begins with that of a package in both ways. -/
theorem not_liesUnder_of_sharesStart (h : SharesStart package name) : ¬ LiesUnder package name := by
  obtain ⟨rest, rfl, hrest⟩ := h
  rintro ⟨more, heq⟩
  have hlist := congrArg String.toList heq
  rw [String.append_assoc, String.toList_append, String.toList_append,
    List.append_cancel_left_eq] at hlist
  exact hrest (by simp [hlist])

/-- A name that is completed with a package lies under each package that this one is or lies
under. -/
theorem liesUnder_of_classOf {outer written : String}
    (hpackage : package = outer ∨ LiesUnder outer package)
    (hclass : Manifest.ClassOf (some package) written name) (hcompleted : name ≠ written) :
    LiesUnder outer name := by
  have hdot : ∃ rest, name = package ++ "." ++ rest := by
    cases hclass with
    | relative _ rest => exact ⟨rest, String.append_assoc.symm⟩
    | bare => exact ⟨written, rfl⟩
    | absolute => exact absurd rfl hcompleted
  obtain ⟨rest, rfl⟩ := hdot
  rcases hpackage with rfl | ⟨between, rfl⟩
  · exact ⟨rest, rfl⟩
  · exact ⟨between ++ "." ++ rest, by simp only [String.append_assoc]⟩

/-! ## What is reported -/

/-- A component does not run where it must, and does not ask that this be ignored. -/
structure Misplaced (s : ManifestSettings) (c : ManifestComponent) : Prop where
  notIgnored : isIgnored c = false
  elsewhere : c.process ≠ some s.requiredProcess

/-- What is reported about a component of this name. -/
def reportOf (s : ManifestSettings) (c : ManifestComponent) (name : String) : Finding :=
  let required := "android:process=\"" ++ s.requiredProcess ++ "\""
  { Finding.ofRule .foreignProcess c.location name with
    message :=
      match c.process with
      | some process =>
        s!"<{c.tag}> {name} runs in process '{process}' but must declare {required}"
      | none => s!"<{c.tag}> {name} must declare {required}" }

/-- **Which components are reported**: those that do not run where they must, if their name begins
with that of the package. -/
theorem finding?_eq_some_iff {f : Finding} :
    finding? s c = some f ↔
      ∃ name, c.name = some name ∧ Text.beginsWith name s.packageStart = true ∧
      Misplaced s c ∧ reportOf s c name = f := by
  rw [finding?, Option.bind_eq_bind, Option.bind_eq_some_iff]
  refine exists_congr fun name => and_congr_right fun _ => ?_
  simp only [Option.ite_none_left_eq_some, Bool.or_eq_true, Bool.not_eq_true', not_or,
    Bool.not_eq_false, Bool.not_eq_true, and_assoc]
  refine and_congr_right fun _ => ?_
  constructor
  · rintro ⟨hignored, hreport⟩
    cases hprocess : c.process with
    | none =>
      rw [hprocess] at hreport
      refine ⟨⟨hignored, by simp [hprocess]⟩, ?_⟩
      rw [reportOf, hprocess]
      exact Option.some.inj hreport
    | some process =>
      rw [hprocess] at hreport
      obtain ⟨helsewhere, hreport⟩ := Option.ite_none_left_eq_some.mp hreport
      refine ⟨⟨hignored, by simpa [hprocess] using helsewhere⟩, ?_⟩
      rw [reportOf, hprocess]
      exact Option.some.inj hreport
  · rintro ⟨⟨hignored, helsewhere⟩, rfl⟩
    refine ⟨hignored, ?_⟩
    cases hprocess : c.process with
    | none =>
      rw [reportOf, hprocess]
    | some process =>
      have hne : ¬ (process == s.requiredProcess) = true := by simpa [hprocess] using helsewhere
      rw [reportOf, hprocess]
      exact if_neg hne

/-- **What is reported of a project.** Every component that does not run where it must is reported
if it lies under the package, and also if its name merely starts with the same characters. These are
different names, and a manifest of the package does not make one of the second kind out of a name
that it completes. -/
theorem reported_under_or_beside_package (s : ManifestSettings) (p : Project) :
    (∀ f, f ∈ findings s p ↔ ∃ c ∈ p.components, ∃ name, c.name = some name ∧
      (LiesUnder s.packageStart name ∨ SharesStart s.packageStart name) ∧ Misplaced s c ∧
        reportOf s c name = f) ∧
      (∀ name, SharesStart s.packageStart name → ¬ LiesUnder s.packageStart name) ∧
        ∀ package written name, package = s.packageStart ∨ LiesUnder s.packageStart package →
          Manifest.ClassOf (some package) written name → name ≠ written →
          LiesUnder s.packageStart name := by
  refine ⟨?_, fun name => not_liesUnder_of_sharesStart, ?_⟩
  · intro f
    rw [findings, List.mem_filterMap]
    simp only [finding?_eq_some_iff, beginsWith_iff_liesUnder_or_sharesStart]
  · intro package written name hpackage hclass hcompleted
    exact liesUnder_of_classOf hpackage hclass hcompleted

/-- A service of another package is reported, because the name of its package goes on where that of
the check ends. -/
theorem service_beside_package_reported :
    ∃ f ∈ findings {} (Project.ofSources [(⟨"AndroidManifest.xml"⟩,
        "<manifest package=\"com.android.adservicesx\"><application>" ++
          "<service android:name=\".Job\"/></application></manifest>")]).1,
      f.rule = .foreignProcess ∧ f.subject = "com.android.adservicesx.Job" ∧
        ¬ LiesUnder ({} : ManifestSettings).packageStart f.subject := by
  have hany : (findings {} (Project.ofSources [(⟨"AndroidManifest.xml"⟩,
      "<manifest package=\"com.android.adservicesx\"><application>" ++
        "<service android:name=\".Job\"/></application></manifest>")]).1).any (fun f =>
      f.rule == .foreignProcess && f.subject == "com.android.adservicesx.Job") = true := by
    decide +kernel
  obtain ⟨f, hf, hreport⟩ := List.any_eq_true.mp hany
  simp only [Bool.and_eq_true, beq_iff_eq] at hreport
  have hshares : SharesStart ({} : ManifestSettings).packageStart "com.android.adservicesx.Job" :=
    ⟨"x.Job", rfl, by decide⟩
  refine ⟨f, hf, hreport.1, hreport.2, ?_⟩
  rw [hreport.2]
  exact not_liesUnder_of_sharesStart hshares

end AdLint.ManifestProcess
