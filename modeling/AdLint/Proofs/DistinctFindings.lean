import AdLint.Proofs.Assembly
import AdLint.Proofs.FindingPlaces
import Mathlib.Data.List.Nodup

/-!
# No violation is reported twice

Two findings of one rule are never at one location, if no path is read twice. The reasons differ
from check to check. A call and a component of a manifest have locations of their own. A database is
reported once for each rule, at its own location or at an annotation in its head, and different
types lie apart there. A field of a job service is reported at its own location, and belongs to one
service only. The rules of different checks are different, and sorting the findings does not add
any.

## Main definitions

* `Finding.DiffersFrom`: two findings are of different rules or at different locations

## Main results

* `RoomScan.pairwise_run`: the scan of the databases reports nothing twice
* `Project.Distinct.disjoint_fieldsOf`: no field belongs to two classes
* `JobService.pairwise_findings`: the check of job services reports nothing twice
* `findings_pairwise_distinct`: an analysis of sources with different paths reports nothing twice
-/

namespace AdLint

/-- Two findings are of different rules or at different locations. -/
def Finding.DiffersFrom (f g : Finding) : Prop :=
  f.rule = g.rule → f.location.same g.location = false

theorem Finding.DiffersFrom.of_rule_ne {f g : Finding} (h : f.rule ≠ g.rule) : f.DiffersFrom g :=
  fun heq => absurd heq h

theorem Location.same_symm {m n : Location} (h : m.same n = false) : n.same m = false := by
  refine Bool.eq_false_iff.mpr fun hsame => Bool.eq_false_iff.mp h ?_
  obtain ⟨hfile, hline, hcolumn, hstart, hstop⟩ := same_iff.mp hsame
  exact same_iff.mpr ⟨hfile.symm, hline.symm, hcolumn.symm, hstart.symm, hstop.symm⟩

theorem Finding.DiffersFrom.symm {f g : Finding} (h : f.DiffersFrom g) : g.DiffersFrom f :=
  fun hrule => Location.same_symm (h hrule.symm)

theorem Declaration.ToldApart.symm {d e : Declaration} (h : d.ToldApart e) : e.ToldApart d where
  fields he hd := Location.same_symm (h.fields hd he)
  types he hd := Location.same_symm (h.types hd he)
  annotated m n hm hn := Location.same_symm (h.annotated n m hn hm)

/-! ## Databases -/

theorem Sole.pairwise {rule : Rule} {fs : List Finding} {R : Finding → Finding → Prop}
    (h : Sole rule fs) : fs.Pairwise R := by
  cases h with
  | none => exact .nil
  | one _ => exact List.pairwise_singleton _ _

namespace Database

variable {p : Project} {room : RoomSettings} {cls : Declaration}

/-- The findings of an inspection are of different rules. -/
theorem pairwise_inspect (htype : cls.isType = true) :
    (inspect p room cls).findings.Pairwise Finding.DiffersFrom := by
  obtain ⟨pieces, hfindings, hnodup, hpieces⟩ := exists_pieces_inspect p room htype
  rw [hfindings]
  refine List.pairwise_flatMap.mpr ⟨fun piece hpiece => ?_, ?_⟩
  · exact (hpieces piece hpiece).1.pairwise
  · refine (List.pairwise_map.mp hnodup).imp_of_mem fun {x y} hx hy hne f hf g hg => ?_
    refine .of_rule_ne ?_
    rw [(hpieces x hx).1.rule_eq hf, (hpieces y hy).1.rule_eq hg]
    exact hne

/-- Findings about different types differ. -/
theorem ReportedAt.differsFrom {d e : Declaration} {f g : Finding} (hf : ReportedAt d f)
    (hg : ReportedAt e g) (hd : d.isType = true) (he : e.isType = true) (h : d.ToldApart e) :
    f.DiffersFrom g := by
  intro hrule
  -- the rule tells whether a finding is at the type or at an annotation
  cases hf with
  | declared hown hlocation =>
    cases hg with
    | declared _ hlocation' =>
      rw [hlocation, hlocation']
      exact h.types hd he
    | annotated hannotated _ => exact absurd (hrule ▸ hown) hannotated
  | annotated hannotated hlocation =>
    cases hg with
    | declared hown _ => exact absurd (hrule ▸ hown) hannotated
    | annotated _ hlocation' => exact h.annotated _ _ hlocation hlocation'

end Database

namespace RoomScan

variable {p : Project} {room : RoomSettings}

theorem pairwise_verified {databases : List Declaration}
    (htypes : ∀ d ∈ databases, d.isType = true) (h : databases.Pairwise Declaration.ToldApart) :
    (verified p room databases).Pairwise Finding.DiffersFrom := by
  unfold verified
  dsimp only
  split
  · refine List.pairwise_map.mpr ((h.imp_of_mem fun {d e} hd he hapart _ => ?_).filter _)
    exact hapart.types (htypes d hd) (htypes e he)
  · unfold registrationMissing
    split
    · exact List.pairwise_singleton _ _
    · exact .nil

/-- A scan reports nothing twice. -/
theorem pairwise_run (h : p.declarations.Pairwise Declaration.ToldApart) :
    (start p room).run.Pairwise Finding.DiffersFrom := by
  have htracked : (tracked p room).Pairwise Declaration.ToldApart := h.filter _
  have htypes : ∀ d ∈ tracked p room, d.isType = true := fun d => isType_of_mem_tracked
  rw [run_start]
  refine List.pairwise_append.mpr ⟨List.pairwise_flatMap.mpr ⟨fun d hd => ?_, ?_⟩, ?_, ?_⟩
  · exact Database.pairwise_inspect (htypes d hd)
  · refine htracked.imp_of_mem fun {d e} hd he hapart f hf g hg => ?_
    exact (Database.reportedAt_of_mem_inspect (htypes d hd) hf).differsFrom
      (Database.reportedAt_of_mem_inspect (htypes e he) hg) (htypes d hd) (htypes e he) hapart
  · split
    · exact .nil
    · exact pairwise_verified htypes htracked
  · -- the two phases report different rules
    intro f hf g hg
    obtain ⟨d, -, hf⟩ := List.mem_flatMap.mp hf
    have hfrule := Database.rule_mem_of_mem_inspect hf
    split at hg
    · cases hg
    · obtain ⟨rule, hrule, hverified⟩ := exists_rule_verified p room (tracked p room)
      refine .of_rule_ne fun heq => ?_
      rw [heq, hverified g hg] at hfrule
      simp only [List.mem_cons, List.not_mem_nil, or_false] at hrule
      rcases hrule with rfl | rfl <;> exact absurd hfrule (by decide)

end RoomScan

/-! ## Fields of job services -/

namespace Project

variable {p : Project} {owner other child field : Declaration}

/-- The fields that a child of a type contributes: itself, or those of a companion object. -/
def fieldsIn (p : Project) (child : Declaration) : List Declaration :=
  match child.kind with
  | .field => [child]
  | .companionObject => (p.children child.id).filter fun d => d.kind == .field
  | _ => []

theorem mem_fieldsIn (h : field ∈ p.fieldsIn child) (hchild : child ∈ p.added) :
    field ∈ p.added ∧ field.kind = .field := by
  rw [fieldsIn] at h
  split at h
  · next hkind =>
    obtain rfl := List.mem_singleton.mp h
    exact ⟨hchild, hkind⟩
  · obtain ⟨hmem, hkind⟩ := List.mem_filter.mp h
    exact ⟨mem_added_of_mem_children hmem, beq_iff_eq.mp hkind⟩
  · cases h

theorem mem_fieldsOf (h : field ∈ p.fieldsOf owner) : field ∈ p.added ∧ field.kind = .field := by
  obtain ⟨child, hchild, h⟩ := List.mem_flatMap.mp h
  exact mem_fieldsIn h (mem_added_of_mem_children hchild)

namespace Distinct

variable (hp : p.Distinct)

include hp

/-- A field that a child contributes is the child itself, or has it for its parent. -/
theorem parentOf?_of_mem_fieldsIn (howner : owner ∈ p.added) (hchild : child ∈ p.children owner.id)
    (h : field ∈ p.fieldsIn child) :
    (field = child ∧ p.parentOf? field = some owner) ∨
      (child.kind = .companionObject ∧ p.parentOf? field = some child) := by
  rw [fieldsIn] at h
  split at h
  · obtain rfl := List.mem_singleton.mp h
    exact .inl ⟨rfl, hp.parentOf?_of_mem_children howner hchild⟩
  · next hkind =>
    exact .inr ⟨hkind, hp.parentOf?_of_mem_children (mem_added_of_mem_children hchild)
      (List.mem_of_mem_filter h)⟩
  · cases h

/-- A field comes to one class only, through one child of the class. -/
theorem eq_of_mem_fieldsIn {child' : Declaration} (howner : owner ∈ p.added)
    (hother : other ∈ p.added) (hclass : owner.kind = .classType)
    (hclass' : other.kind = .classType)
    (hchild : child ∈ p.children owner.id) (hchild' : child' ∈ p.children other.id)
    (h : field ∈ p.fieldsIn child) (h' : field ∈ p.fieldsIn child') :
    owner = other ∧ child = child' := by
  have hparent := hp.parentOf?_of_mem_children howner hchild
  have hparent' := hp.parentOf?_of_mem_children hother hchild'
  rcases hp.parentOf?_of_mem_fieldsIn howner hchild h with ⟨rfl, hfield⟩ | ⟨hkind, hfield⟩
  · rcases hp.parentOf?_of_mem_fieldsIn hother hchild' h' with ⟨rfl, hfield'⟩ | ⟨hkind', hfield'⟩
    · exact ⟨Option.some.inj (hfield.symm.trans hfield'), rfl⟩
    · -- a class is no companion object
      obtain rfl := Option.some.inj (hfield.symm.trans hfield')
      rw [hclass] at hkind'
      cases hkind'
  · rcases hp.parentOf?_of_mem_fieldsIn hother hchild' h' with ⟨rfl, hfield'⟩ | ⟨hkind', hfield'⟩
    · obtain rfl := Option.some.inj (hfield.symm.trans hfield')
      rw [hclass'] at hkind
      cases hkind
    · obtain rfl := Option.some.inj (hfield.symm.trans hfield')
      exact ⟨Option.some.inj (hparent.symm.trans hparent'), rfl⟩

theorem nodup_children (id : DeclarationId) : (p.children id).Nodup := by
  rw [hp.children_eq]
  exact hp.nodup.filter _

/-- The fields of a class are listed once. -/
theorem nodup_fieldsOf (howner : owner ∈ p.added) (hclass : owner.kind = .classType) :
    (p.fieldsOf owner).Nodup := by
  refine List.nodup_flatMap.mpr ⟨fun child _ => ?_, ?_⟩
  · split
    · exact List.nodup_singleton _
    · exact (hp.nodup_children _).filter _
    · exact .nil
  · refine (hp.nodup_children owner.id).imp_of_mem fun {c c'} hc hc' hne field h h' => hne ?_
    exact (hp.eq_of_mem_fieldsIn howner howner hclass hclass hc hc' h h').2

/-- **No field belongs to two classes.** -/
theorem disjoint_fieldsOf (howner : owner ∈ p.added) (hother : other ∈ p.added)
    (hclass : owner.kind = .classType) (hclass' : other.kind = .classType) (hne : owner ≠ other) :
    (p.fieldsOf owner).Disjoint (p.fieldsOf other) := by
  intro field h h'
  obtain ⟨child, hchild, h⟩ := List.mem_flatMap.mp h
  obtain ⟨child', hchild', h'⟩ := List.mem_flatMap.mp h'
  exact hne (hp.eq_of_mem_fieldsIn howner hother hclass hclass' hchild hchild' h h').1

end Distinct

end Project

/-- The check of job services reports nothing twice. -/
theorem JobService.pairwise_findings {p : Project} (hp : p.Distinct)
    (hapart : p.added.Pairwise Declaration.ToldApart) :
    (findings p).Pairwise Finding.DiffersFrom := by
  have hsymm : Std.Symm Declaration.ToldApart := ⟨fun _ _ => Declaration.ToldApart.symm⟩
  -- different fields are reported at different locations, whatever services they are found in
  have hdiffer : ∀ {s s' d e : Declaration} {f g : Finding}, d ∈ p.fieldsOf s → e ∈ p.fieldsOf s' →
      d ≠ e → finding? s d = some f → finding? s' e = some g → f.DiffersFrom g := by
    intro s s' d e f g hd he hne hf hg _
    obtain ⟨hdmem, hdkind⟩ := Project.mem_fieldsOf hd
    obtain ⟨hemem, hekind⟩ := Project.mem_fieldsOf he
    rw [location_of_finding? hf, location_of_finding? hg]
    exact (hapart.forall hdmem hemem hne).fields hdkind hekind
  have hservice : ∀ s ∈ services p, s ∈ p.added ∧ s.kind = .classType := by
    intro s hs
    obtain ⟨htype, hs⟩ := List.mem_filter.mp hs
    exact ⟨Project.mem_added_of_find? (Project.find?_of_mem_types htype),
      beq_iff_eq.mp (Bool.and_eq_true_iff.mp hs).1⟩
  have hnodup : (services p).Nodup := by
    rw [services, Project.types, hp.declarations_eq]
    exact (hp.nodup.filter _).filter _
  refine List.pairwise_flatMap.mpr ⟨fun s hs => List.pairwise_filterMap.mpr ?_, ?_⟩
  · obtain ⟨hmem, hclass⟩ := hservice s hs
    exact (hp.nodup_fieldsOf hmem hclass).imp_of_mem fun hd he hne f hf g hg =>
      hdiffer hd he hne hf hg
  · refine hnodup.imp_of_mem fun {s s'} hs hs' hne f hf g hg => ?_
    obtain ⟨hmem, hclass⟩ := hservice s hs
    obtain ⟨hmem', hclass'⟩ := hservice s' hs'
    obtain ⟨d, hd, hf⟩ := List.mem_filterMap.mp hf
    obtain ⟨e, he, hg⟩ := List.mem_filterMap.mp hg
    refine hdiffer hd he ?_ hf hg
    rintro rfl
    exact hp.disjoint_fieldsOf hmem hmem' hclass hclass' hne hd he

/-! ## Calls and components -/

/-- A check that looks at things with different locations, each by itself, reports nothing twice. -/
theorem pairwise_filterMap_finding {α : Type} {location : α → Location} {xs : List α}
    {finding? : α → Option Finding}
    (hlocation : ∀ x f, finding? x = some f → f.location = location x)
    (h : xs.Pairwise fun a b => (location a).same (location b) = false) :
    (xs.filterMap finding?).Pairwise Finding.DiffersFrom := by
  refine List.pairwise_filterMap.mpr (h.imp fun {a b} hne f hf g hg _ => ?_)
  rw [hlocation a f hf, hlocation b g hg]
  exact hne

/-! ## The whole analysis -/

section Sources

variable {sources : List (Path × String)}
  (hpaths : sources.Pairwise fun a b => a.1.same b.1 = false)

include hpaths

theorem pairwise_calls_ofSources :
    (Project.ofSources sources).1.calls.Pairwise fun a b => a.location.same b.location = false := by
  rw [Project.ofSources_eq_ofOutlines]
  refine Project.pairwise_flatMap_of_file (fun c : Call => c.location.file)
    (pairwise_outlines hpaths)
    (fun o ho => (wellPlaced_of_mem_outlines ho).callsApart)
    (fun o ho => (wellPlaced_of_mem_outlines ho).file_of_call) ?_
  exact fun _ _ _ _ _ _ _ _ hfile => Location.same_of_file hfile

theorem pairwise_components_ofSources :
    (Project.ofSources sources).1.components.Pairwise
      fun a b => a.location.same b.location = false := by
  rw [Project.ofSources_eq_ofOutlines]
  refine Project.pairwise_flatMap_of_file (fun c : ManifestComponent => c.location.file)
    (pairwise_outlines hpaths) (fun o ho => (wellPlaced_of_mem_outlines ho).componentsApart)
    (fun o ho => (wellPlaced_of_mem_outlines ho).file_of_component) ?_
  exact fun _ _ _ _ _ _ _ _ hfile => Location.same_of_file hfile

/-- No check reports anything twice. -/
theorem Check.pairwise_findings {s : Settings} {check : Check} (hcheck : check ∈ all s) :
    (check.findings (Project.ofSources sources).1).Pairwise Finding.DiffersFrom := by
  have hos : ∀ o ∈ outlines sources, o.WellPlaced := fun o => wellPlaced_of_mem_outlines
  have hdistinct := Project.distinct_ofSources hpaths
  have hapart : (Project.ofSources sources).1.added.Pairwise Declaration.ToldApart := by
    rw [Project.ofSources_eq_ofOutlines]
    exact Project.pairwise_toldApart_ofOutlines hos (pairwise_outlines hpaths)
  have hcalls := pairwise_calls_ofSources hpaths
  simp only [all, List.mem_cons, List.not_mem_nil, or_false] at hcheck
  rcases hcheck with rfl | rfl | rfl | rfl | rfl | rfl
  · exact RoomScan.pairwise_run (hdistinct.declarations_eq ▸ hapart)
  · exact pairwise_filterMap_finding (fun _ _ => RestrictedApi.location_of_finding?) hcalls
  · exact pairwise_filterMap_finding (fun _ _ => RestrictedApi.location_of_finding?) hcalls
  · exact JobService.pairwise_findings hdistinct hapart
  · change (FileNaming.findings _ _).Pairwise _
    unfold FileNaming.findings
    split
    · exact pairwise_filterMap_finding (fun _ _ => FileNaming.location_of_finding?) hcalls
    · exact .nil
  · exact pairwise_filterMap_finding (fun _ _ => ManifestProcess.location_of_finding?)
      (pairwise_components_ofSources hpaths)

end Sources

/-- Different checks report different rules. -/
theorem Check.pairwise_rules (s : Settings) :
    (all s).Pairwise fun c d => ∀ rule ∈ c.rules, rule ∉ d.rules := by
  simp [all, room, systemProperties, deviceConfig, jobService, fileNaming, manifestProcess,
    RestrictedApi.systemProperties, RestrictedApi.deviceConfig]

/-- **No violation is reported twice.** If no path is read twice, then no two findings of an
analysis have the same rule and the same location. -/
theorem findings_pairwise_distinct (s : Settings) (sources : List (Path × String))
    (hpaths : sources.Pairwise fun a b => a.1.same b.1 = false) :
    (analyze s (Project.ofSources sources).1).Pairwise fun f g =>
      ¬(f.rule = g.rule ∧ f.location.same g.location = true) := by
  have hfound : (foundBy s (Project.ofSources sources).1).Pairwise Finding.DiffersFrom := by
    refine List.pairwise_flatMap.mpr ⟨fun check => Check.pairwise_findings hpaths, ?_⟩
    refine (Check.pairwise_rules s).imp_of_mem fun {c d} hc hd hrules f hf g hg => ?_
    refine .of_rule_ne fun heq => hrules f.rule (Check.rule_mem hc hf) ?_
    exact heq ▸ Check.rule_mem hd hg
  -- neither suppression nor severities nor the order of the result bear on this
  have hkept : (keptFindings s (Project.ofSources sources).1).Pairwise Finding.DiffersFrom :=
    List.pairwise_map.mpr (hfound.filter _)
  have hsorted : (analyze s (Project.ofSources sources).1).Pairwise Finding.DiffersFrom :=
    ((analyze_isStableSort s _).perm.pairwise_iff fun h => h.symm).mpr hkept
  exact hsorted.imp fun hdiffers ⟨hrule, hsame⟩ => Bool.eq_false_iff.mp (hdiffers hrule) hsame

/-- Two job services. Two fields of the first one have one range, and are shown at different
columns. -/
def eagerServices : List (Path × String) :=
  [(⟨"src/Sync.java"⟩, "class Sync extends JobService \x7b Queue a = f(), b = g(); \x7d"),
    (⟨"src/Load.kt"⟩, "class Load : JobService() \x7b val c = h() \x7d")]

theorem eagerServices_pairwise_distinct :
    (eagerServices.Pairwise fun a b => a.1.same b.1 = false) ∧
      (foundBy {} (Project.ofSources eagerServices).1).map (fun f =>
          (f.rule, f.location.column, f.location.start, f.location.stop)) =
        [(.eagerJobServiceField, 39, 32, 55), (.eagerJobServiceField, 48, 32, 55),
          (.eagerJobServiceField, 33, 28, 39)] ∧
      (analyze {} (Project.ofSources eagerServices).1).Pairwise fun f g =>
        ¬(f.rule = g.rule ∧ f.location.same g.location = true) :=
  ⟨by decide, by decide +kernel, findings_pairwise_distinct {} eagerServices (by decide)⟩

end AdLint
