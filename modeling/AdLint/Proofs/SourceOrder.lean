import AdLint.Proofs.FindingPlaces
import AdLint.Proofs.Rearrangement
import Mathlib.Data.List.Nodup

/-!
# The order of sources does not matter

The findings of an analysis are the same list in whatever order the sources are read, if no path is
read twice and types of one name are in one file. Each check reports in the file of what it looks
at, so that its findings agree on each file by themselves. One finding is about all files, that
there is no registration class: it is reported at the earliest database, and this is found by file
and line. The findings are sorted by file first, and so the order of files is not seen in the
result.

## Main results

* `Project.Rearranges.findings`: the findings of each check agree on each file
* `analyze_eq_of_agreeByFile`: findings that agree on each file are sorted to one list
* `analyze_eq_of_perm`: an analysis does not depend on the order of sources
-/

namespace AdLint

open Std (OrientedCmp ReflCmp TransCmp)

/-- The file that a finding is in. -/
def Finding.file (f : Finding) : Path := f.location.file

/-! ## The earliest database -/

namespace RoomScan

variable {ds ds' : List Declaration} {d e : Declaration}

theorem file_same_of_comparePlace (h : comparePlace d e = .eq) :
    e.location.file.same d.location.file = true := by
  have hfile := (Ordering.then_eq_eq.mp h).1
  exact Path.same_iff.mpr (Path.compare_eq_iff.mp hfile).symm

/-- The earliest of some databases is the first of those at its place. -/
theorem IsEarliest.head?_filter (h : IsEarliest ds d) :
    (ds.filter fun e => comparePlace d e == .eq).head? = some d := by
  obtain ⟨before, after, rfl, hbefore, -⟩ := h
  have hnone : (before.filter fun e => comparePlace d e == .eq) = [] := by
    refine List.filter_eq_nil_iff.mpr fun e he => ?_
    rw [hbefore e he]
    decide
  have hself : (comparePlace d d == .eq) = true := beq_iff_eq.mpr ReflCmp.compare_self
  rw [List.filter_append, hnone, List.nil_append, List.filter_cons, if_pos hself]
  rfl

/-- The earliest of some databases does not depend on the order of files. -/
theorem earliest?_eq (h : AgreeByFile (fun d => d.location.file) ds ds') :
    earliest? ds = earliest? ds' := by
  cases ds with
  | nil =>
    cases ds' with
    | nil => rfl
    | cons d' ds' => exact absurd (h.mem_iff.mpr List.mem_cons_self) (by simp)
  | cons d ds =>
    cases ds' with
    | nil => exact absurd (h.mem_iff.mp List.mem_cons_self) (by simp)
    | cons d' ds' =>
      obtain ⟨first, hfirst, hearliest⟩ := exists_earliest? d ds
      obtain ⟨first', hfirst', hearliest'⟩ := exists_earliest? d' ds'
      have hmem : first ∈ d :: ds :=
        List.mem_of_mem_filter (List.mem_of_mem_head? hearliest.head?_filter)
      have hmem' : first' ∈ d' :: ds' :=
        List.mem_of_mem_filter (List.mem_of_mem_head? hearliest'.head?_filter)
      -- both are the earliest, so they are at one place, and each is the first there
      have hplace : comparePlace first first' = .eq :=
        OrientedCmp.isLE_antisymm (hearliest.isLE (h.mem_iff.mpr hmem'))
          (hearliest'.isLE (h.mem_iff.mp hmem))
      have hclass :
          (fun e => comparePlace first e == .eq) = fun e => comparePlace first' e == .eq := by
        funext e
        rw [TransCmp.congr_left hplace]
      have hfilter := h.filter_eq first.location.file fun e _ he =>
        file_same_of_comparePlace (beq_iff_eq.mp he)
      rw [hfirst, hfirst', ← hearliest.head?_filter, ← hearliest'.head?_filter, ← hclass, hfilter]

end RoomScan

/-! ## The findings of the checks -/

namespace Project.Rearranges

variable {p q : Project} (h : p.Rearranges q)

include h

theorem inspect_eq : Database.inspect p = Database.inspect q := by
  have hversion : Database.versionField? p = Database.versionField? q := by
    funext room cls
    rw [Database.versionField?, Database.versionField?, h.fieldsOf_eq]
  have hexported : Database.notExported p = Database.notExported q := by
    funext cls a
    rw [Database.notExported, Database.notExported, h.evaluate?_eq]
  have hitem : Database.itemStep? p = Database.itemStep? q := by
    funext room cls e
    cases e <;> simp only [Database.itemStep?, Database.step?, h.evaluateInt?_eq]
  have hsteps : Database.steps? p = Database.steps? q := by
    funext room cls e
    cases e <;> simp only [Database.steps?, hitem]
  funext room cls
  simp only [Database.inspect, hversion, hexported, hsteps, h.evaluateInt?_eq]

theorem isRegistered_eq : RoomScan.isRegistered p = RoomScan.isRegistered q := by
  funext r d
  rw [RoomScan.isRegistered, RoomScan.isRegistered, h.find?_eq, h.qualifiedName?_eq]

theorem tracked (room : RoomSettings) :
    AgreeByFile (fun d => d.location.file) (RoomScan.tracked p room) (RoomScan.tracked q room) := by
  rw [RoomScan.tracked, RoomScan.tracked, h.isSubtypeOf_eq]
  exact h.declarations.filter _

theorem perm_tracked (room : RoomSettings) :
    (RoomScan.tracked p room).Perm (RoomScan.tracked q room) := by
  rw [RoomScan.tracked, RoomScan.tracked, h.isSubtypeOf_eq, h.distinct.declarations_eq,
    h.distinct_right.declarations_eq]
  exact h.perm.filter _

theorem verified (room : RoomSettings) :
    AgreeByFile Finding.file (RoomScan.verified p room (RoomScan.tracked p room))
      (RoomScan.verified q room (RoomScan.tracked q room)) := by
  unfold RoomScan.verified
  rw [h.collect_eq, h.isRegistered_eq]
  dsimp only
  split
  · exact ((h.tracked room).filter _).map fun _ _ => rfl
  · -- one finding for all databases, with their number and at the earliest of them
    rw [RoomScan.registrationMissing, RoomScan.registrationMissing,
      RoomScan.earliest?_eq (h.tracked room), (h.perm_tracked room).length_eq]
    exact fun _ => rfl

/-- The findings about databases agree on each file. -/
theorem run (room : RoomSettings) :
    AgreeByFile Finding.file (RoomScan.start p room).run (RoomScan.start q room).run := by
  rw [RoomScan.run_start, RoomScan.run_start, h.inspect_eq]
  refine AgreeByFile.append ((h.tracked room).flatMap fun d hd f hf => ?_) ?_
  · -- a database is reported where it is declared or annotated
    have hadded : d ∈ p.added := h.distinct.declarations_eq ▸ List.mem_of_mem_filter hd
    have hfile : f.location.file = d.location.file := by
      cases Database.reportedAt_of_mem_inspect (RoomScan.isType_of_mem_tracked hd) hf with
      | declared _ hlocation => rw [hlocation]
      | annotated _ hlocation => exact h.file_of_annotatedAt d hadded _ hlocation
    exact Path.same_iff.mpr (congrArg Path.components hfile)
  · rw [(h.perm_tracked room).isEmpty_eq]
    split
    · exact fun _ => rfl
    · exact h.verified room

theorem resolve?_eq (api : RestrictedApi) : api.resolve? p = api.resolve? q := by
  funext call
  rw [RestrictedApi.resolve?, RestrictedApi.resolve?, h.resolveType?_eq, h.resolveStatic?_eq]

theorem restrictedApi (api : RestrictedApi) :
    AgreeByFile Finding.file (api.findings p) (api.findings q) := by
  have hfinding : api.finding? p = api.finding? q := by
    funext call
    rw [RestrictedApi.finding?, RestrictedApi.finding?, h.resolve?_eq, h.enclosing_eq]
  rw [RestrictedApi.findings, RestrictedApi.findings, hfinding]
  refine h.calls.filterMap fun call _ f hf => ?_
  rw [Finding.file, RestrictedApi.location_of_finding? hf]
  exact Path.same_refl _

theorem fileNaming (s : FileNamingSettings) :
    AgreeByFile Finding.file (FileNaming.findings s p) (FileNaming.findings s q) := by
  have hfinding : FileNaming.finding? p = FileNaming.finding? q := by
    funext written pattern call
    rw [FileNaming.finding?, FileNaming.finding?, h.innermost?_eq, h.knownStart?_eq]
  rw [FileNaming.findings, FileNaming.findings, hfinding]
  split
  · refine h.calls.filterMap fun call _ f hf => ?_
    rw [Finding.file, FileNaming.location_of_finding? hf]
    exact Path.same_refl _
  · exact fun _ => rfl

theorem manifestProcess (s : ManifestSettings) :
    AgreeByFile Finding.file (ManifestProcess.findings s p) (ManifestProcess.findings s q) := by
  refine h.components.filterMap fun component _ f hf => ?_
  rw [Finding.file, ManifestProcess.location_of_finding? hf]
  exact Path.same_refl _

/-- The fields of a type are in its file. -/
theorem file_of_mem_fieldsOf {owner field : Declaration} (howner : owner ∈ p.added)
    (hfield : field ∈ p.fieldsOf owner) :
    field.location.file.same owner.location.file = true := by
  obtain ⟨child, hchild, hfield⟩ := List.mem_flatMap.mp hfield
  have hfile : child.location.file.same owner.location.file = true := by
    rw [h.file_of_id owner howner]
    exact h.file_of_mem_children hchild
  -- a field of the type itself, or one of its companion object
  split at hfield
  · rw [List.mem_singleton.mp hfield]
    exact hfile
  · have hinner := h.file_of_mem_children (List.mem_of_mem_filter hfield)
    rw [← h.file_of_id child (mem_added_of_mem_children hchild)] at hinner
    rw [Path.same_congr hinner]
    exact hfile
  · cases hfield

theorem jobService : AgreeByFile Finding.file (JobService.findings p) (JobService.findings q) := by
  rw [JobService.findings, JobService.findings, JobService.services, JobService.services,
    h.isSubtypeOf_eq, ← h.fieldsOf_eq]
  refine ((h.declarations.filter _).filter _).flatMap fun service hservice f hf => ?_
  have hadded : service ∈ p.added := by
    rw [← h.distinct.declarations_eq]
    exact List.mem_of_mem_filter (List.mem_of_mem_filter hservice)
  obtain ⟨field, hfield, hf⟩ := List.mem_filterMap.mp hf
  rw [Finding.file, JobService.location_of_finding? hf]
  exact h.file_of_mem_fieldsOf hadded hfield

/-- **The findings of each check agree on each file.** -/
theorem findings {s : Settings} {check : Check} (hcheck : check ∈ Check.all s) :
    AgreeByFile Finding.file (check.findings p) (check.findings q) := by
  simp only [Check.all, List.mem_cons, List.not_mem_nil, or_false] at hcheck
  rcases hcheck with rfl | rfl | rfl | rfl | rfl | rfl
  · exact h.run s.room
  · exact h.restrictedApi _
  · exact h.restrictedApi _
  · exact h.jobService
  · exact h.fileNaming s.fileNaming
  · exact h.manifestProcess s.manifest

theorem isSuppressed_eq : isSuppressed p = isSuppressed q := by
  funext f
  rw [isSuppressed, isSuppressed, h.enclosing_eq]

theorem keptFindings (s : Settings) :
    AgreeByFile Finding.file (keptFindings s p) (keptFindings s q) := by
  have hfound : ∀ checks : List Check, (∀ check ∈ checks, check ∈ Check.all s) →
      AgreeByFile Finding.file (checks.flatMap fun check => check.findings p)
        (checks.flatMap fun check => check.findings q) := by
    intro checks hchecks
    induction checks with
    | nil => exact fun _ => rfl
    | cons check checks ih =>
      obtain ⟨hcheck, hchecks⟩ := List.forall_mem_cons.mp hchecks
      exact (h.findings hcheck).append (ih hchecks)
  rw [AdLint.keptFindings, AdLint.keptFindings, h.isSuppressed_eq]
  exact ((hfound (Check.all s) fun _ hcheck => hcheck).filter _).map fun _ _ => rfl

end Project.Rearranges

/-! ## The sorted result -/

/-- **Findings that agree on each file are sorted to one list.** -/
theorem analyze_eq_of_agreeByFile {s : Settings} {p q : Project}
    (h : AgreeByFile Finding.file (keptFindings s p) (keptFindings s q)) :
    analyze s p = analyze s q := by
  have hp := analyze_isStableSort s p
  have hq := analyze_isStableSort s q
  refine eq_of_ordered_of_classes hp.ordered hq.ordered (hp.perm.trans (h.perm.trans hq.perm.symm))
    fun f => ?_
  rw [hp.stable, hq.stable]
  -- findings that compare as equal are in one file
  refine h.filter_eq f.file fun g _ hg => ?_
  have hfile := (Ordering.then_eq_eq.mp (beq_iff_eq.mp hg)).1
  exact Path.same_iff.mpr (Path.compare_eq_iff.mp hfile).symm

/-- **The order of sources does not matter.** If the paths of the sources are different, and types
of one name are in one file, then an analysis gives the same findings in the same order for every
permutation of the sources. -/
theorem analyze_eq_of_perm (s : Settings) (sources sources' : List (Path × String))
    (hperm : sources.Perm sources') (hpaths : sources.Pairwise fun a b => a.1.same b.1 = false)
    (hnames : ∀ d ∈ (Project.ofSources sources).1.types, ∀ e ∈ (Project.ofSources sources).1.types,
      d.name = e.name → d.location.file.same e.location.file = true) :
    analyze s (Project.ofSources sources).1 = analyze s (Project.ofSources sources').1 := by
  have hrearranges := Project.rearranges_ofSources hperm hpaths hnames
  exact analyze_eq_of_agreeByFile (hrearranges.keptFindings s)

/-- Two databases that no class registers, one of them with a companion object. -/
def stores : List (Path × String) :=
  [(⟨"src/Store.java"⟩, "class Store extends RoomDatabase \x7b\x7d"),
    (⟨"src/Cache.kt"⟩,
      "class Cache : RoomDatabase() \x7b companion object \x7b val X = 1 \x7d \x7d")]

theorem analyze_stores_reverse :
    (stores.Pairwise fun a b => a.1.same b.1 = false) ∧
      (Project.ofSources stores).1.types.map Declaration.name = ["Store", "Cache", "Companion"] ∧
      (foundBy {} (Project.ofSources stores).1).map (fun f => (f.rule, f.file.text)) =
        [(.databaseUnannotated, "src/Store.java"), (.versionFieldMissing, "src/Store.java"),
          (.databaseUnannotated, "src/Cache.kt"), (.versionFieldMissing, "src/Cache.kt"),
          (.registrationMissing, "src/Cache.kt")] ∧
      analyze {} (Project.ofSources stores).1 =
        analyze {} (Project.ofSources stores.reverse).1 := by
  have hpaths : stores.Pairwise fun a b => a.1.same b.1 = false := by decide
  have hnames : (Project.ofSources stores).1.types.map Declaration.name =
      ["Store", "Cache", "Companion"] := by decide +kernel
  refine ⟨hpaths, hnames, by decide +kernel,
    analyze_eq_of_perm {} stores stores.reverse (List.reverse_perm stores).symm hpaths
      fun d hd e he hname => ?_⟩
  -- all names are different
  have hnodup : ((Project.ofSources stores).1.types.map Declaration.name).Nodup :=
    hnames ▸ by decide
  rw [List.inj_on_of_nodup_map hnodup hd he hname]
  exact Path.same_refl _

end AdLint
