import AdLint.Proofs.ImportedNames
import AdLint.Proofs.Record

/-!
# Names that are matched exactly

A written type is compared with one qualified name at a time. It may be that name, or be bound to it
by an explicit import, and then the match is exact; or a wildcard import or the package of the file
may make it known, and then the match is inferred. Each comparison looks at the levels in this order
and stops at the first that speaks about the written name, whatever it says. So the comparisons of
one written type with different names cannot contradict each other: once one of them is exact, all
others fail, since the level that decided it decides them as well. A type that the file declares
itself stands before all imports.

Blanks in a written type are layout and are taken out before it is looked up, while the names of
declared types stay as they are. A type with a blank in its name, which Kotlin allows between
backticks, is therefore not found under its own name.

## Main definitions

* `Project.Resolves`: the levels at which a name without blanks is known to denote a qualified one

## Main results

* `Project.resolveType?_eq_some_iff`: a comparison succeeds exactly at these levels
* `Project.Resolves.eq_of_exact`: an exact match leaves no other
* `Project.exact_match_excludes_others`: what this means for written types
-/

namespace AdLint.Project

variable {p : Project} {file : Path} {written reference qualified : String} {r : Resolution}

/-- How a name without blanks, written in a file, denotes a qualified name. -/
inductive Resolves (p : Project) (file : Path) (written qualified : String) : Resolution → Prop
  /-- It is the qualified name. -/
  | spelled (hself : written = qualified) : Resolves p file written qualified .exact
  /-- The import that decides about it has the qualified name as its path. -/
  | imported {package : String} {context : SourceFile} {i : Import}
      (hsplit : splitQualified? qualified = some (package, written)) (hplain : '.' ∉ written.toList)
      (hlocal : p.localType? file written = none) (hfile : p.file? file = some context)
      (himport : context.importOf? written = some i) (hpath : i.path = qualified) :
      Resolves p file written qualified .exact
  /-- No import decides about it, and its package is that of a wildcard import or of the file. -/
  | inferred {package : String} {context : SourceFile}
      (hsplit : splitQualified? qualified = some (package, written)) (hplain : '.' ∉ written.toList)
      (hlocal : p.localType? file written = none) (hfile : p.file? file = some context)
      (himport : context.importOf? written = none)
      (hpackage : context.importsAll package = true ∨ context.package = some package) :
      Resolves p file written qualified .inferred

theorem dot_mem_of_splitQualified? {package simple : String}
    (h : splitQualified? qualified = some (package, simple)) : '.' ∈ qualified.toList := by
  rw [splitQualified?, Text.cutAtLast?] at h
  split at h
  · next hdot => exact List.contains_iff_mem.mp hdot
  · cases h

/-- A name that is looked up in the file is not the qualified one, which has a dot. -/
theorem ne_of_splitQualified? {package simple : String}
    (h : splitQualified? qualified = some (package, simple)) (hplain : '.' ∉ written.toList) :
    written ≠ qualified := by
  rintro rfl
  exact hplain (dot_mem_of_splitQualified? h)

/-- What a comparison is when the name can be looked up in the file. -/
theorem resolveType?_of_split {package : String} {context : SourceFile}
    (hsplit : splitQualified? qualified = some (package, Text.compact reference))
    (hplain : '.' ∉ (Text.compact reference).toList)
    (hlocal : p.localType? file (Text.compact reference) = none)
    (hfile : p.file? file = some context) :
    p.resolveType? file reference qualified =
      (context.importOf? (Text.compact reference)).elim
        (if context.importsAll package = true ∨ context.package = some package then some .inferred
          else none)
        fun i => if i.path = qualified then some .exact else none := by
  have hself := ne_of_splitQualified? hsplit hplain
  cases himport : context.importOf? (Text.compact reference) <;>
    simp [resolveType?, hself, hsplit, hplain, hlocal, hfile, himport]

theorem Resolves.resolveType?_eq (h : p.Resolves file (Text.compact reference) qualified r) :
    p.resolveType? file reference qualified = some r := by
  cases h with
  | spelled hself =>
    rw [resolveType?]
    exact if_pos (beq_iff_eq.mpr hself)
  | imported hsplit hplain hlocal hfile himport hpath =>
    rw [resolveType?_of_split hsplit hplain hlocal hfile, himport]
    exact if_pos hpath
  | inferred hsplit hplain hlocal hfile himport hpackage =>
    rw [resolveType?_of_split hsplit hplain hlocal hfile, himport]
    exact if_pos hpackage

theorem resolves_of_resolveType? (h : p.resolveType? file reference qualified = some r) :
    p.Resolves file (Text.compact reference) qualified r := by
  by_cases hself : Text.compact reference = qualified
  · rw [resolveType?, if_pos (beq_iff_eq.mpr hself)] at h
    cases h
    exact .spelled hself
  · have hrest := h
    rw [resolveType?, if_neg (by simpa using hself), Option.bind_eq_bind,
      Option.bind_eq_some_iff] at hrest
    obtain ⟨⟨package, simple⟩, hsplit, hrest⟩ := hrest
    dsimp only at hrest
    split at hrest
    · cases hrest
    · next hsought =>
      simp only [Bool.or_eq_true, bne_iff_ne, List.contains_iff_mem, not_or, not_not] at hsought
      obtain ⟨rfl, hplain⟩ := hsought
      split at hrest
      · cases hrest
      · next hlocal =>
        rw [Option.not_isSome_iff_eq_none] at hlocal
        obtain ⟨context, hfile, -⟩ := Option.bind_eq_some_iff.mp hrest
        rw [resolveType?_of_split hsplit hplain hlocal hfile] at h
        cases himport : context.importOf? (Text.compact reference) with
        | some i =>
          rw [himport, Option.elim_some, Option.ite_none_right_eq_some] at h
          obtain ⟨hpath, hr⟩ := h
          cases hr
          exact .imported hsplit hplain hlocal hfile himport hpath
        | none =>
          rw [himport, Option.elim_none, Option.ite_none_right_eq_some] at h
          obtain ⟨hpackage, hr⟩ := h
          cases hr
          exact .inferred hsplit hplain hlocal hfile himport hpackage

/-- **A comparison succeeds exactly at the levels of `Resolves`.** -/
theorem resolveType?_eq_some_iff :
    p.resolveType? file reference qualified = some r ↔
      p.Resolves file (Text.compact reference) qualified r :=
  ⟨resolves_of_resolveType?, Resolves.resolveType?_eq⟩

/-! ## One match for one written type -/

/-- **An exact match leaves no other.** The level that gives it speaks about the written name, so it
decides about every other qualified name as well. -/
theorem Resolves.eq_of_exact {other : String} (h : p.Resolves file written qualified .exact)
    (hother : p.Resolves file written other r) (hdot : '.' ∈ qualified.toList)
    (hdot' : '.' ∈ other.toList) : qualified = other := by
  cases h with
  | spelled hself =>
    -- a written name with a dot is compared as it is and never looked up
    cases hother with
    | spelled hself' => exact hself.symm.trans hself'
    | imported _ hplain => exact absurd (hself ▸ hdot) hplain
    | inferred _ hplain => exact absurd (hself ▸ hdot) hplain
  | imported _ hplain _ hfile himport hpath =>
    cases hother with
    | spelled hself' => exact absurd (hself' ▸ hdot') hplain
    | imported _ _ _ hfile' himport' hpath' =>
      obtain rfl := Option.some.inj (hfile.symm.trans hfile')
      obtain rfl := Option.some.inj (himport.symm.trans himport')
      exact hpath.symm.trans hpath'
    | inferred _ _ _ hfile' himport' =>
      obtain rfl := Option.some.inj (hfile.symm.trans hfile')
      rw [himport] at himport'
      cases himport'

/-- Wildcard imports and the package are asked only about a name without dots that no import
binds. -/
theorem Resolves.not_bound {context : SourceFile} (h : p.Resolves file written qualified .inferred)
    (hfile : p.file? file = some context) :
    '.' ∉ written.toList ∧ ¬ ∃ i ∈ context.imports, i.Binds written := by
  cases h with
  | inferred _ hplain _ hfile' himport =>
    obtain rfl := Option.some.inj (hfile.symm.trans hfile')
    rw [← SourceFile.isSome_importOf?_iff, himport]
    exact ⟨hplain, Bool.false_ne_true⟩

theorem mem_typesNamed_of_mem_types {d : Declaration} (h : d ∈ p.types) :
    d ∈ p.typesNamed d.name := by
  have hfind := find?_of_mem_types h
  refine mem_current.mpr ⟨d, List.mem_filter.mpr ⟨mem_added_of_find? hfind, ?_⟩, hfind⟩
  rw [(List.mem_filter.mp h).2, beq_self_eq_true, Bool.and_self]

theorem localType?_ne_none {d : Declaration} (h : d ∈ p.types)
    (hfile : d.location.file.same file = true) :
    p.localType? file d.name ≠ none := by
  intro hnone
  exact List.find?_eq_none.mp hnone d (mem_typesNamed_of_mem_types h) hfile

/-- A type of the file itself hides every import of its name. -/
theorem Resolves.name_ne_of_mem_types {d : Declaration} (h : p.Resolves file written qualified r)
    (hdot : '.' ∈ qualified.toList) (hplain : '.' ∉ written.toList) (hd : d ∈ p.types)
    (hfile : d.location.file.same file = true) : d.name ≠ written := by
  rintro rfl
  cases h with
  | spelled hself => exact hplain (hself ▸ hdot)
  | imported _ _ hlocal => exact localType?_ne_none hd hfile hlocal
  | inferred _ _ hlocal => exact localType?_ne_none hd hfile hlocal

/-- **An exact match excludes all others.** If a written type exactly denotes one dotted name, it
denotes no other one in any way. If it has a dot, or if an import binds it, then no wildcard import
and no package is asked, however many there are. And if it has no dot and the file declares a type
of this name, blanks in the written type aside, it denotes no dotted name at all. -/
theorem exact_match_excludes_others (p : Project) (file : Path) (reference : String) :
    (∀ qualified other : String, '.' ∈ qualified.toList → '.' ∈ other.toList → qualified ≠ other →
        p.resolveType? file reference qualified = some .exact →
        p.resolveType? file reference other = none) ∧
      (∀ (context : SourceFile) (qualified : String), p.file? file = some context →
        ('.' ∈ (Text.compact reference).toList ∨ ∃ i ∈ context.imports,
          i.Binds (Text.compact reference)) →
        p.resolveType? file reference qualified ≠ some .inferred) ∧
      ∀ d ∈ p.types, d.location.file.same file = true → d.name = Text.compact reference →
        '.' ∉ reference.toList → ∀ qualified : String, '.' ∈ qualified.toList →
        p.resolveType? file reference qualified = none := by
  refine ⟨?_, ?_, ?_⟩
  · intro qualified other hdot hdot' hne hexact
    by_contra hsome
    obtain ⟨r, hr⟩ := Option.ne_none_iff_exists'.mp hsome
    rw [resolveType?_eq_some_iff] at hexact hr
    exact hne (hexact.eq_of_exact hr hdot hdot')
  · intro context qualified hfile hdecides hinferred
    rw [resolveType?_eq_some_iff] at hinferred
    obtain ⟨hplain, hbound⟩ := hinferred.not_bound hfile
    exact hdecides.elim hplain hbound
  · intro d hd hfile hname hplain qualified hdot
    by_contra hsome
    obtain ⟨r, hr⟩ := Option.ne_none_iff_exists'.mp hsome
    rw [resolveType?_eq_some_iff] at hr
    refine hr.name_ne_of_mem_types hdot (fun hmem => hplain ?_) hd hfile hname
    rw [Text.compact, String.toList_ofList] at hmem
    exact (List.mem_filter.mp hmem).1

/-- A class in the file of the examples. -/
def classIn (name : String) : Declaration where
  id := ⟨⟨"Flags.kt"⟩, 40, 60⟩
  name := name
  kind := .classType
  location := ⟨⟨"Flags.kt"⟩, 3, 7, 40, 60⟩
  language := .kotlin

/-- A file that may know `Props` in five ways, and declares a class `Local` of which it also imports
another. -/
def crowded : Project :=
  (({} : Project).addFile
    { path := ⟨"Flags.kt"⟩
      language := .kotlin
      package := some "own"
      imports :=
        [⟨"android.os", true, none⟩, ⟨"vendor.Props", false, none⟩, ⟨"vendor.Local", false, none⟩,
          ⟨"other", true, none⟩, ⟨"other.Props", false, none⟩] }).addDeclaration (classIn "Local")

/-- The first import of `Props` decides about it, also where blanks stand in the written type. -/
theorem exact_match_excludes_others_crowded :
    crowded.resolveType? ⟨"Flags.kt"⟩ " Pro ps" "vendor.Props" = some .exact ∧
      (∀ other ∈ ["android.os.Props", "own.Props", "other.Props"],
        crowded.resolveType? ⟨"Flags.kt"⟩ " Pro ps" other = none) ∧
      crowded.resolveType? ⟨"Flags.kt"⟩ "Loc al" "vendor.Local" = none := by
  have hexact : crowded.resolveType? ⟨"Flags.kt"⟩ " Pro ps" "vendor.Props" = some .exact := by
    decide
  refine ⟨hexact, ?_, ?_⟩
  · intro other hother
    have hdots : ∀ s ∈ ["android.os.Props", "own.Props", "other.Props"],
        '.' ∈ s.toList ∧ "vendor.Props" ≠ s := by
      decide
    obtain ⟨hdot, hne⟩ := hdots other hother
    exact And.left (exact_match_excludes_others crowded ⟨"Flags.kt"⟩ " Pro ps") _ other
      (by decide) hdot hne
      hexact
  · exact And.right (And.right (exact_match_excludes_others crowded ⟨"Flags.kt"⟩ "Loc al"))
      (classIn "Local") (List.mem_singleton.mpr rfl) rfl rfl (by decide) "vendor.Local" (by decide)

/-- **A type with a blank in its name hides no import.** A file declares a class `My Props` and
imports a class `MyProps`, both between backticks. The name of the class, written as it is declared,
denotes the import. -/
theorem blank_name_hides_nothing :
    let p := (({} : Project).addFile
      { path := ⟨"Flags.kt"⟩
        language := .kotlin
        imports := [⟨"vendor.`MyProps`", false, none⟩] }).addDeclaration (classIn "`My Props`")
    (∃ d ∈ p.types, d.location.file.same ⟨"Flags.kt"⟩ = true ∧ d.name = "`My Props`") ∧
      '.' ∉ "`My Props`".toList ∧ '.' ∈ "vendor.`MyProps`".toList ∧
      p.resolveType? ⟨"Flags.kt"⟩ "`My Props`" "vendor.`MyProps`" = some .exact :=
  ⟨⟨classIn "`My Props`", List.mem_singleton.mpr rfl, rfl, rfl⟩, by decide, by decide, by decide⟩

end AdLint.Project
