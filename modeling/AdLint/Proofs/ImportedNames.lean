import AdLint.Project.Names
import Mathlib.Data.List.TakeWhile

/-!
# Names that imports make known

Two questions look a name up among the imports of a file: which type a written type denotes, and
whether it denotes a given one. Both take the first import that binds the name. An import binds the
name after its `as`, or else the last part of its path. The first question answers with the path of
that import, whatever the name. The second compares the written name with the last part of the given
path before it looks at any import, so a type that is imported under another name is found by the
first question and never by the second.

## Main definitions

* `Import.Binds`: the name that an import makes known
* `SourceFile.FirstImport`: the import that decides about a name
* `TypeName.IsPlain`: a written type that is nothing but a name

## Main results

* `Project.qualifyType?_eq_path_iff`: the first question answers with the deciding import
* `Project.resolveType?_eq_exact_iff`: the second one does so for the last part of the path only
* `Project.exact_iff_imported_by_last_name`: how far the two questions agree
-/

namespace AdLint

/-! ## The import that decides about a name -/

/-- An import makes a name known: the one it gives, or else the last part of its path. -/
def Import.Binds (i : Import) (name : String) : Prop :=
  i.wildcard = false ∧
    (i.localName = some name ∨ i.localName = none ∧ Text.lastDotted i.path = name)

theorem Import.binds?_eq_some_iff {i : Import} {name : String} :
    i.binds? = some name ↔ i.Binds name := by
  rw [Import.binds?, Import.Binds]
  cases i.wildcard with
  | true => simp
  | false => cases i.localName <;> simp

namespace SourceFile

variable {f : SourceFile} {name : String} {i : Import}

/-- The import that decides about a name: the first one that binds it. -/
def FirstImport (f : SourceFile) (name : String) (i : Import) : Prop :=
  ∃ before after, f.imports = before ++ i :: after ∧ i.Binds name ∧ ∀ j ∈ before, ¬ j.Binds name

theorem importOf?_eq_some_iff : f.importOf? name = some i ↔ f.FirstImport name i := by
  rw [importOf?, List.find?_eq_some_iff_append, FirstImport]
  constructor
  · rintro ⟨hi, before, after, himports, hbefore⟩
    refine ⟨before, after, himports, Import.binds?_eq_some_iff.mp (beq_iff_eq.mp hi), ?_⟩
    intro j hj hbinds
    have := hbefore j hj
    simp [Import.binds?_eq_some_iff.mpr hbinds] at this
  · rintro ⟨before, after, himports, hi, hbefore⟩
    refine ⟨beq_iff_eq.mpr (Import.binds?_eq_some_iff.mpr hi), before, after, himports, ?_⟩
    intro j hj
    simpa [Import.binds?_eq_some_iff] using hbefore j hj

theorem isSome_importOf?_iff : (f.importOf? name).isSome ↔ ∃ i ∈ f.imports, i.Binds name := by
  rw [importOf?, List.find?_isSome]
  simp only [beq_iff_eq, Import.binds?_eq_some_iff]

end SourceFile

/-! ## Written types that are plain names -/

/-- A written type that is nothing but a name: no blanks, no dots, and none of what can follow a
name, which is type arguments, a nullable mark and array brackets. -/
structure TypeName.IsPlain (written : String) : Prop where
  noBlank : ∀ c ∈ written.toList, Text.isBlank c = false
  noDot : '.' ∉ written.toList
  noArguments : '<' ∉ written.toList
  noMark : written.toList.getLast? ≠ some '?'
  noBrackets : Text.beforeEnd? ['[', ']'] written.toList = none

theorem TypeName.isPlain_iff {written : String} :
    IsPlain written ↔ (written.toList.all fun c => !Text.isBlank c) = true ∧ '.' ∉ written.toList ∧
      '<' ∉ written.toList ∧ written.toList.getLast? ≠ some '?' ∧
      Text.beforeEnd? ['[', ']'] written.toList = none := by
  simp only [List.all_eq_true, Bool.not_eq_true']
  exact ⟨fun h => ⟨h.noBlank, h.noDot, h.noArguments, h.noMark, h.noBrackets⟩,
    fun ⟨hblank, hdot, harguments, hmark, hbrackets⟩ =>
      ⟨hblank, hdot, harguments, hmark, hbrackets⟩⟩

instance : DecidablePred TypeName.IsPlain := fun _ => decidable_of_iff _ TypeName.isPlain_iff.symm

namespace Text

theorem compact_eq_self {s : String} (h : ∀ c ∈ s.toList, isBlank c = false) : compact s = s := by
  rw [compact, List.filter_eq_self.mpr fun c hc => by rw [h c hc]; rfl, String.ofList_toList]

theorem dropEndWhile_eq_self {α : Type} {p : α → Bool} {xs : List α}
    (h : ∀ x, xs.getLast? = some x → p x = false) : dropEndWhile p xs = xs := by
  rw [dropEndWhile]
  cases hxs : xs.reverse with
  | nil => rw [List.dropWhile_nil, ← hxs, List.reverse_reverse]
  | cons x rest =>
    have hlast : xs.getLast? = some x := by rw [← List.head?_reverse, hxs, List.head?_cons]
    rw [List.dropWhile_cons_of_neg (by simp [h x hlast]), ← hxs, List.reverse_reverse]

theorem trimChars_eq_self {cs : List Char} (h : ∀ c ∈ cs, isBlank c = false) :
    trimChars cs = cs := by
  have hstart : trimStartChars cs = cs := by
    cases cs with
    | nil => rfl
    | cons c cs => rw [trimStartChars, List.dropWhile_cons_of_neg (by simp [h c])]
  rw [trimChars, hstart, trimEndChars, dropEndWhile_eq_self]
  intro c hc
  exact h c (List.mem_of_getLast? hc)

theorem dropEndAll_eq_self {tail cs : List Char} (h : beforeEnd? tail cs = none) :
    dropEndAll tail cs = cs := by
  rw [dropEndAll]
  cases hn : cs.length with
  | zero => rfl
  | succ n => rw [dropEndAllAux, h]

end Text

theorem TypeName.IsPlain.bare_eq {written : String} (h : IsPlain written) :
    bare written = written.toList := by
  have harguments : (written.toList.takeWhile fun c => c != '<') = written.toList := by
    refine List.takeWhile_eq_self_iff.mpr fun c hc => ?_
    have : c ≠ '<' := fun heq => h.noArguments (heq ▸ hc)
    simpa using this
  rw [bare, harguments, Text.trimChars_eq_self h.noBlank, Text.dropEndWhile_eq_self,
    Text.dropEndAll_eq_self h.noBrackets]
  intro c hc
  have : c ≠ '?' := fun heq => h.noMark (heq ▸ hc)
  simpa using this

/-! ## The two questions -/

namespace Project

variable {p : Project} {file : Path} {context : SourceFile} {name qualified : String}

theorem splitQualified?_of_dot (hdot : '.' ∈ qualified.toList) :
    ∃ package, splitQualified? qualified = some (package, Text.lastDotted qualified) := by
  rw [splitQualified?, Text.cutAtLast?, if_pos (List.contains_iff_mem.mpr hdot)]
  exact ⟨_, rfl⟩

/-- A file in which no type of the name is declared. -/
theorem localType?_eq_none (h : ∀ d ∈ p.typesNamed name, d.location.file.same file = false) :
    p.localType? file name = none := by
  refine List.find?_eq_none.mpr fun d hd => ?_
  rw [h d hd]
  exact Bool.false_ne_true

/-- **The type that a plain name denotes is the path of the import that decides about it**, if there
is such an import. -/
theorem qualifyType?_eq_path_iff (hname : TypeName.IsPlain name)
    (hfile : p.file? file = some context)
    (hlocal : p.localType? file name = none) :
    (∃ i, context.FirstImport name i ∧ i.path = qualified) ↔
      p.qualifyType? file name = some qualified ∧ ∃ i ∈ context.imports, i.Binds name := by
  have hcompact : Text.compact (String.ofList (TypeName.bare name)) = name := by
    rw [hname.bare_eq, String.ofList_toList, Text.compact_eq_self hname.noBlank]
  have hdot : name.toList.contains '.' = false := by simpa using hname.noDot
  rw [← SourceFile.isSome_importOf?_iff, qualifyType?, hcompact]
  simp only [hdot, Bool.false_eq_true, if_false, hlocal, hfile, Option.bind_eq_bind,
    Option.bind_some, ← SourceFile.importOf?_eq_some_iff]
  cases context.importOf? name with
  | none => simp
  | some i => simp

/-- A name that is not the last part of a path never denotes what the path leads to. -/
theorem resolveType?_of_ne (hname : TypeName.IsPlain name) (hdot : '.' ∈ qualified.toList)
    (hne : Text.lastDotted qualified ≠ name) : p.resolveType? file name qualified = none := by
  have hself : name ≠ qualified := fun heq => hname.noDot (heq ▸ hdot)
  obtain ⟨package, hsplit⟩ := splitQualified?_of_dot hdot
  rw [resolveType?, Text.compact_eq_self hname.noBlank]
  simp [hself, hsplit, hne.symm]

/-- **A plain name exactly denotes what a path leads to** if it is the last part of the path and the
path is that of the import that decides about it. -/
theorem resolveType?_eq_exact_iff (hname : TypeName.IsPlain name) (hdot : '.' ∈ qualified.toList)
    (hfile : p.file? file = some context) (hlocal : p.localType? file name = none) :
    p.resolveType? file name qualified = some .exact ↔
      (∃ i, context.FirstImport name i ∧ i.path = qualified) ∧
        Text.lastDotted qualified = name := by
  by_cases hlast : Text.lastDotted qualified = name
  · have hself : name ≠ qualified := fun heq => hname.noDot (heq ▸ hdot)
    have hplain : name.toList.contains '.' = false := by simpa using hname.noDot
    obtain ⟨package, hsplit⟩ := splitQualified?_of_dot hdot
    rw [resolveType?, Text.compact_eq_self hname.noBlank]
    simp only [beq_eq_false_iff_ne.mpr hself, Bool.false_eq_true, if_false, hsplit, hlast, hlocal,
      hfile, Option.bind_eq_bind, Option.bind_some, bne_self_eq_false, hplain, Bool.or_self,
      Option.isSome_none, ← SourceFile.importOf?_eq_some_iff, and_true]
    -- wildcards and the package are asked only where no import binds the name
    cases context.importOf? name with
    | none =>
      dsimp only
      split <;> simp
    | some i => simp
  · rw [resolveType?_of_ne hname hdot hlast]
    simp [hlast]

/-- **The two questions agree on imports up to renaming.** Take a plain name of which the file
declares no type, and a dotted path. The name exactly denotes what the path leads to if and only if
the import that decides about the name has this path and the name is the last part of it.
That import has this path if and only if the name is qualified to it and some import binds the name.
So for an import under another name the two questions differ: the name is qualified to its path, and
denotes it in no way. -/
theorem exact_iff_imported_by_last_name (hname : TypeName.IsPlain name)
    (hdot : '.' ∈ qualified.toList)
    (hfile : p.file? file = some context)
    (hlocal : ∀ d ∈ p.typesNamed name, d.location.file.same file = false) :
    (p.resolveType? file name qualified = some .exact ↔
        (∃ i, context.FirstImport name i ∧ i.path = qualified) ∧ Text.lastDotted qualified = name) ∧
      ((∃ i, context.FirstImport name i ∧ i.path = qualified) ↔
        p.qualifyType? file name = some qualified ∧ ∃ i ∈ context.imports, i.Binds name) ∧
      (Text.lastDotted qualified ≠ name → p.resolveType? file name qualified = none) :=
  ⟨resolveType?_eq_exact_iff hname hdot hfile (localType?_eq_none hlocal),
    qualifyType?_eq_path_iff hname hfile (localType?_eq_none hlocal), resolveType?_of_ne hname hdot⟩

/-- A file that imports one type under another name, and two types under one name. -/
def importing : SourceFile where
  path := ⟨"Flags.kt"⟩
  language := .kotlin
  imports :=
    [⟨"android.os.SystemProperties", false, some "Config"⟩, ⟨"vendor.Props", false, none⟩,
      ⟨"other.Props", false, none⟩]

/-- Of the two imports that bind the name, the first decides. -/
theorem exact_iff_imported_by_last_name_props :
    TypeName.IsPlain "Props" ∧
      (({} : Project).addFile importing).resolveType? ⟨"Flags.kt"⟩ "Props" "vendor.Props" =
        some .exact := by
  have hletters : ("Props".toList.all fun c => !Text.isBlank c) = true := by decide
  have hname : TypeName.IsPlain "Props" :=
    ⟨fun c hc => by simpa using List.all_eq_true.mp hletters c hc, by decide, by decide, by decide,
      by decide⟩
  have hagree :
      (({} : Project).addFile importing).resolveType? ⟨"Flags.kt"⟩ "Props" "vendor.Props" =
      some .exact ↔ (∃ i, importing.FirstImport "Props" i ∧ i.path = "vendor.Props") ∧
        Text.lastDotted "vendor.Props" = "Props" :=
    And.left (exact_iff_imported_by_last_name hname (by decide) rfl (by decide))
  have hfirst : importing.FirstImport "Props" ⟨"vendor.Props", false, none⟩ :=
    SourceFile.importOf?_eq_some_iff.mp (by decide)
  exact ⟨hname, hagree.mpr ⟨⟨_, hfirst, rfl⟩, by decide⟩⟩

/-- **A name given by `as` is not matched.** A file imports `android.os.SystemProperties` as
`Config` and declares no type at all. The name is qualified to the path of the import, but is not
found to denote it. -/
theorem renamed_import_not_matched :
    importing.FirstImport "Config" ⟨"android.os.SystemProperties", false, some "Config"⟩ ∧
      (({} : Project).addFile importing).qualifyType? ⟨"Flags.kt"⟩ "Config" =
        some "android.os.SystemProperties" ∧
      (({} : Project).addFile importing).resolveType? ⟨"Flags.kt"⟩ "Config"
        "android.os.SystemProperties" = none :=
  ⟨SourceFile.importOf?_eq_some_iff.mp (by decide), by decide, by decide⟩

end Project

end AdLint
