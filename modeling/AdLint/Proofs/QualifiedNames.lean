import AdLint.Proofs.ExactNames
import AdLint.Proofs.Lineage

/-!
# The types that written types denote

A written type is looked up by its name alone, without type arguments, marks and blanks. A name with
dots stands for itself if it begins as a package does, with a small letter. A name without dots is
looked for among the types of the file, its imports and its package, in this order, and the first of
these that knows the name decides. A declaration is qualified by its package and the declarations
around it.

The package is asked in two ways. Without a wildcard import it is taken for granted that an unknown
name belongs to it. Beside a wildcard import the name must be that of a type which some file of the
package declares; but such a type counts at whatever depth it is nested, and the answer is made of
the package and the name all the same. So the answer is the qualified name of a type of the package
exactly if one of the name stands at the top of a file.

## Main definitions

* `TypeName.sought`: the name by which a written type is looked up
* `Project.Qualifies`: the levels at which such a name is qualified

## Main results

* `Project.qualifyType?_eq_some_iff`: a written type is qualified exactly at these levels
* `Project.qualifiedName?_eq_some_iff`: the qualified name of a declaration
* `Project.qualified_beside_wildcard`: what a name denotes beside a wildcard import
-/

namespace AdLint

/-! ## Parts of dotted names -/

namespace Text

theorem afterLast_append_cons {α : Type} [BEq α] [LawfulBEq α] (sep : α) (xs ys : List α) :
    afterLast sep (xs ++ sep :: ys) = afterLast sep ys := by
  have hstop : ((sep :: xs.reverse).takeWhile fun x => !(x == sep)) = [] :=
    List.takeWhile_cons_of_neg (by simp)
  have hreverse : (xs ++ sep :: ys).reverse = ys.reverse ++ sep :: xs.reverse := by simp
  rw [afterLast, afterLast, hreverse, List.takeWhile_append, hstop, List.append_nil]
  -- either there is a separator in `ys`, or all of `ys` is taken
  split
  · next hall =>
    rw [(List.takeWhile_prefix _).eq_of_length hall]
  · rfl

theorem afterLast_eq_self {α : Type} [BEq α] [LawfulBEq α] {sep : α} {xs : List α} (h : sep ∉ xs) :
    afterLast sep xs = xs := by
  have hall : (xs.reverse.takeWhile fun x => !(x == sep)) = xs.reverse := by
    refine List.takeWhile_eq_self_iff.mpr fun x hx => ?_
    have hne : x ≠ sep := fun heq => h (heq ▸ List.mem_reverse.mp hx)
    simpa using hne
  rw [afterLast, hall, List.reverse_reverse]

theorem lastDotted_append_dot (a b : String) : lastDotted (a ++ "." ++ b) = lastDotted b := by
  have hlist : (a ++ "." ++ b).toList = a.toList ++ '.' :: b.toList := by simp
  rw [lastDotted, lastDotted, hlist, afterLast_append_cons]

theorem lastDotted_eq_self {s : String} (h : '.' ∉ s.toList) : lastDotted s = s := by
  rw [lastDotted, afterLast_eq_self h, String.ofList_toList]

end Text

/-! ## Written types -/

/-- The name by which a written type is looked up. -/
def TypeName.sought (written : String) : String := Text.compact (String.ofList (bare written))

theorem TypeName.IsPlain.sought_eq {name : String} (h : IsPlain name) : sought name = name := by
  rw [sought, h.bare_eq, String.ofList_toList, Text.compact_eq_self h.noBlank]

namespace Project

variable {p : Project} {file : Path} {name written qualified : String} {d : Declaration}

/-- How a name without blanks, written in a file, is qualified. -/
inductive Qualifies (p : Project) (file : Path) (name qualified : String) : Prop
  /-- It is qualified as it is written. -/
  | spelled (hdot : '.' ∈ name.toList) (hlower : Text.startsLower name = true)
      (hself : name = qualified)
  /-- It is the name of a type of the file. -/
  | declared {d : Declaration} (hplain : '.' ∉ name.toList)
      (hlocal : p.localType? file name = some d)
      (hname : p.qualifiedName? d = some qualified)
  /-- An import decides about it. -/
  | imported {context : SourceFile} {i : Import} (hplain : '.' ∉ name.toList)
      (hlocal : p.localType? file name = none) (hfile : p.file? file = some context)
      (himport : context.importOf? name = some i) (hpath : i.path = qualified)
  /-- Nothing else is known about it, and it is left to the package of the file. -/
  | packaged {context : SourceFile} {package : String} (hplain : '.' ∉ name.toList)
      (hlocal : p.localType? file name = none) (hfile : p.file? file = some context)
      (himport : context.importOf? name = none) (hpackage : context.package = some package)
      (hknown : p.declaredInPackage package name = true ∨ context.hasWildcard = false)
      (hname : package ++ "." ++ name = qualified)

theorem qualifyType?_of_dot (hdot : '.' ∈ (TypeName.sought written).toList) :
    p.qualifyType? file written =
      if Text.startsLower (TypeName.sought written) then some (TypeName.sought written)
      else none := by
  rw [TypeName.sought] at *
  simp [qualifyType?, hdot]

theorem qualifyType?_of_local (hplain : '.' ∉ (TypeName.sought written).toList)
    (hlocal : p.localType? file (TypeName.sought written) = some d) :
    p.qualifyType? file written = p.qualifiedName? d := by
  rw [TypeName.sought] at *
  simp [qualifyType?, hplain, hlocal]

/-- What a written type is qualified to when its name is looked up in the imports and the
package. -/
theorem qualifyType?_of_context {context : SourceFile}
    (hplain : '.' ∉ (TypeName.sought written).toList)
    (hlocal : p.localType? file (TypeName.sought written) = none)
    (hfile : p.file? file = some context) :
    p.qualifyType? file written =
      (context.importOf? (TypeName.sought written)).elim
        (context.package.bind fun package =>
          if p.declaredInPackage package (TypeName.sought written) = true ∨
              context.hasWildcard = false then
            some (package ++ "." ++ TypeName.sought written)
          else none)
        fun i => some i.path := by
  rw [TypeName.sought] at *
  cases himport : context.importOf? (Text.compact (String.ofList (TypeName.bare written))) <;>
    simp [qualifyType?, hplain, hlocal, hfile, himport]

theorem Qualifies.qualifyType?_eq (h : p.Qualifies file (TypeName.sought written) qualified) :
    p.qualifyType? file written = some qualified := by
  cases h with
  | spelled hdot hlower hself =>
    rw [qualifyType?_of_dot hdot, if_pos hlower, hself]
  | declared hplain hlocal hname =>
    rw [qualifyType?_of_local hplain hlocal, hname]
  | imported hplain hlocal hfile himport hpath =>
    rw [qualifyType?_of_context hplain hlocal hfile, himport, Option.elim_some, hpath]
  | packaged hplain hlocal hfile himport hpackage hknown hname =>
    rw [qualifyType?_of_context hplain hlocal hfile, himport, Option.elim_none, hpackage,
      Option.bind_some, if_pos hknown, hname]

theorem qualifies_of_qualifyType? (h : p.qualifyType? file written = some qualified) :
    p.Qualifies file (TypeName.sought written) qualified := by
  by_cases hdot : '.' ∈ (TypeName.sought written).toList
  · rw [qualifyType?_of_dot hdot, Option.ite_none_right_eq_some] at h
    exact .spelled hdot h.1 (Option.some.inj h.2)
  · cases hlocal : p.localType? file (TypeName.sought written) with
    | some d =>
      rw [qualifyType?_of_local hdot hlocal] at h
      exact .declared hdot hlocal h
    | none =>
      cases hfile : p.file? file with
      | none =>
        rw [TypeName.sought] at *
        simp [qualifyType?, hdot, hlocal, hfile] at h
      | some context =>
        rw [qualifyType?_of_context hdot hlocal hfile] at h
        cases himport : context.importOf? (TypeName.sought written) with
        | some i =>
          rw [himport] at h
          exact .imported hdot hlocal hfile himport (Option.some.inj h)
        | none =>
          rw [himport, Option.elim_none] at h
          obtain ⟨package, hpackage, h⟩ := Option.bind_eq_some_iff.mp h
          rw [Option.ite_none_right_eq_some] at h
          exact .packaged hdot hlocal hfile himport hpackage h.1 (Option.some.inj h.2)

/-- **A written type is qualified exactly at the levels of `Qualifies`.** -/
theorem qualifyType?_eq_some_iff :
    p.qualifyType? file written = some qualified ↔
      p.Qualifies file (TypeName.sought written) qualified :=
  ⟨qualifies_of_qualifyType?, Qualifies.qualifyType?_eq⟩

/-! ## Qualified names of declarations -/

/-- **The qualified name of a declaration** is made of its package, the names around it and its own
name. -/
theorem qualifiedName?_eq_some_iff :
    p.qualifiedName? d = some qualified ↔ ∃ package outer,
      p.packageOf? d.location.file = some package ∧
        p.outerNames? (p.added.length + 1) d.parent = some outer ∧
        ".".intercalate (package :: outer) ++ "." ++ d.name = qualified := by
  have hjoin : ∀ (package : String) (outer : List String),
      ".".intercalate (package :: outer ++ [d.name]) =
        ".".intercalate (package :: outer) ++ "." ++ d.name := by
    intro package outer
    rw [String.intercalate_append_of_ne_nil (by simp) (by simp), String.intercalate_singleton]
  simp only [qualifiedName?, Option.bind_eq_bind, Option.bind_eq_some_iff, Option.some_inj, hjoin]
  constructor
  · rintro ⟨outer, houter, package, hpackage, hname⟩
    exact ⟨package, outer, hpackage, houter, hname⟩
  · rintro ⟨package, outer, hpackage, houter, hname⟩
    exact ⟨outer, houter, package, hpackage, hname⟩

/-- A declaration has no names around it only if it has no parent. -/
theorem parent_eq_none_of_outerNames? {n : Nat} (h : p.outerNames? n d.parent = some []) :
    d.parent = none := by
  cases hparent : d.parent with
  | none => rfl
  | some id =>
    rw [hparent] at h
    cases n with
    | zero => cases h
    | succ n =>
      cases hfind : p.find? id with
      | none => simp [outerNames?, hfind] at h
      | some e => simp [outerNames?_some hfind] at h

/-- The last part of a qualified name is that of the name of the declaration. -/
theorem lastDotted_of_qualifiedName? (h : p.qualifiedName? d = some qualified) :
    Text.lastDotted qualified = Text.lastDotted d.name := by
  obtain ⟨package, outer, -, -, rfl⟩ := qualifiedName?_eq_some_iff.mp h
  exact Text.lastDotted_append_dot _ _

/-- Two names behind one package are the same name. -/
theorem eq_of_package_append {package a b : String}
    (h : package ++ "." ++ a = package ++ "." ++ b) : a = b := by
  have hlist := congrArg String.toList h
  simp only [String.toList_append, List.append_cancel_left_eq] at hlist
  exact String.toList_inj.mp hlist

/-- **A declaration of a package is qualified by the package alone** exactly if it stands in no
other one. -/
theorem qualifiedName?_eq_package_iff {package : String}
    (hpackage : p.packageOf? d.location.file = some package)
    (hplain : '.' ∉ name.toList) :
    p.qualifiedName? d = some (package ++ "." ++ name) ↔ d.name = name ∧ d.parent = none := by
  rw [qualifiedName?_eq_some_iff]
  constructor
  · rintro ⟨package', outer, hpackage', houter, hname⟩
    obtain rfl : package = package' := Option.some.inj (hpackage.symm.trans hpackage')
    cases outer with
    | nil =>
      rw [String.intercalate_singleton] at hname
      exact ⟨eq_of_package_append hname, parent_eq_none_of_outerNames? houter⟩
    | cons o outer =>
      -- the dot before the last name would be one of `name`
      refine absurd ?_ hplain
      have hjoin : ".".intercalate (package :: o :: outer) ++ "." ++ d.name =
          package ++ "." ++ (".".intercalate (o :: outer) ++ "." ++ d.name) := by
        simp only [String.intercalate_cons_cons, String.append_assoc]
      rw [← eq_of_package_append (hjoin.symm.trans hname)]
      simp
  · rintro ⟨rfl, hparent⟩
    refine ⟨package, [], hpackage, ?_, ?_⟩
    · rw [hparent, outerNames?_none]
    · rw [String.intercalate_singleton]

/-! ## Names beside a wildcard import -/

theorem declaredInPackage_iff {package : String} :
    p.declaredInPackage package name = true ↔
      ∃ t ∈ p.typesNamed name, p.packageOf? t.location.file = some package := by
  simp [declaredInPackage]

/-- A name that neither the types of the file nor its imports know, beside a wildcard import. -/
theorem qualifyType?_eq_some_iff_declared {context : SourceFile} {package : String}
    (hname : TypeName.IsPlain name)
    (hfile : p.file? file = some context) (hpackage : context.package = some package)
    (hwildcard : context.hasWildcard = true) (hlocal : p.localType? file name = none)
    (himport : context.importOf? name = none) :
    p.qualifyType? file name = some qualified ↔
      package ++ "." ++ name = qualified ∧ ∃ t ∈ p.typesNamed name, p.packageOf? t.location.file =
        some package := by
  have hsought := hname.sought_eq
  rw [qualifyType?_of_context (hsought.symm ▸ hname.noDot) (hsought.symm ▸ hlocal) hfile,
    hsought, himport, Option.elim_none, hpackage, Option.bind_some, Option.ite_none_right_eq_some,
    Option.some_inj, hwildcard, ← declaredInPackage_iff]
  simp [and_comm]

/-- **What a name denotes beside a wildcard import.** Take a plain name in a file that has a package
and a wildcard import, and neither declares a type of the name nor binds it by an import. The name
is qualified if and only if some file of the package declares a type of the name, at any depth, and
then it is qualified by the package. The answer is the qualified name of a type of the package if
and only if one of the name stands in no other declaration; so the only other types that it can name
are those of other packages. -/
theorem qualified_beside_wildcard (p : Project) (file : Path) {name package : String}
    {context : SourceFile}
    (hname : TypeName.IsPlain name) (hfile : p.file? file = some context)
    (hpackage : context.package = some package)
    (hwildcard : context.hasWildcard = true)
    (hlocal : ∀ d ∈ p.typesNamed name, d.location.file.same file = false)
    (himport : ¬ ∃ i ∈ context.imports, i.Binds name) :
    (∀ qualified, p.qualifyType? file name = some qualified ↔
        package ++ "." ++ name = qualified ∧
          ∃ t ∈ p.typesNamed name, p.packageOf? t.location.file = some package) ∧
      ∀ qualified, p.qualifyType? file name = some qualified →
        ((∃ t ∈ p.types, p.qualifiedName? t = some qualified) ↔
          (∃ t ∈ p.types, p.packageOf? t.location.file = some package ∧ t.name = name ∧
            t.parent = none) ∨
            ∃ t ∈ p.types, p.packageOf? t.location.file ≠ some package ∧
              p.qualifiedName? t = some qualified) := by
  have himport : context.importOf? name = none := by
    rw [← Option.not_isSome_iff_eq_none, SourceFile.isSome_importOf?_iff]
    exact himport
  have hqualify : ∀ qualified, p.qualifyType? file name = some qualified ↔ _ := fun qualified =>
    qualifyType?_eq_some_iff_declared hname hfile hpackage hwildcard
      (localType?_eq_none hlocal) himport
  refine ⟨hqualify, ?_⟩
  intro qualified hqualified
  obtain ⟨rfl, -⟩ := (hqualify qualified).mp hqualified
  constructor
  · rintro ⟨t, ht, hqualifiedName⟩
    by_cases htpackage : p.packageOf? t.location.file = some package
    · exact .inl ⟨t, ht, htpackage,
        (qualifiedName?_eq_package_iff htpackage hname.noDot).mp hqualifiedName⟩
    · exact .inr ⟨t, ht, htpackage, hqualifiedName⟩
  · rintro (⟨t, ht, htpackage, htop⟩ | ⟨t, ht, -, hqualifiedName⟩)
    · exact ⟨t, ht, (qualifiedName?_eq_package_iff htpackage hname.noDot).mpr htop⟩
    · exact ⟨t, ht, hqualifiedName⟩

/-- A file that imports all types of another package. -/
def importingAll : SourceFile where
  path := ⟨"A.java"⟩
  language := .java
  package := some "p"
  imports := [⟨"q", true, none⟩]

/-- A class `Outer` in another file of the package. -/
def outerClass : Declaration where
  id := ⟨⟨"B.java"⟩, 12, 49⟩
  name := "Outer"
  kind := .classType
  location := ⟨⟨"B.java"⟩, 3, 1, 12, 49⟩
  language := .java

/-- A class `Foo` inside `Outer`. -/
def innerClass : Declaration where
  id := ⟨⟨"B.java"⟩, 30, 47⟩
  name := "Foo"
  kind := .classType
  location := ⟨⟨"B.java"⟩, 4, 5, 30, 47⟩
  language := .java
  parent := some outerClass.id

/-- The two files. -/
def besideWildcard : Project :=
  (((({} : Project).addFile importingAll).addFile
    { path := ⟨"B.java"⟩, language := .java, package := some "p" }).addDeclaration
      outerClass).addDeclaration innerClass

/-- The outer class is found by its name. -/
theorem qualified_beside_wildcard_outer :
    besideWildcard.qualifyType? ⟨"A.java"⟩ "Outer" = some "p.Outer" ∧
      ∃ t ∈ besideWildcard.types, besideWildcard.qualifiedName? t = some "p.Outer" := by
  have himport : ¬ ∃ i ∈ importingAll.imports, i.Binds "Outer" := by
    rw [← SourceFile.isSome_importOf?_iff]
    decide
  have hfile : besideWildcard.file? ⟨"A.java"⟩ = some importingAll := rfl
  have hqualified := qualified_beside_wildcard besideWildcard ⟨"A.java"⟩ (by decide) hfile rfl rfl
      (by decide) himport
  have hsettled : besideWildcard.qualifyType? ⟨"A.java"⟩ "Outer" = some "p.Outer" :=
    (hqualified.1 "p.Outer").mpr ⟨by decide, outerClass, List.mem_singleton.mpr rfl, by decide⟩
  refine ⟨hsettled, (hqualified.2 "p.Outer" hsettled).mpr (.inl ⟨outerClass, ?_, ?_, ?_, ?_⟩)⟩
  · exact List.mem_cons_self
  · decide
  · rfl
  · rfl

/-- **A nested type settles the name it does not have.** The file neither declares `Foo` nor binds
it, and imports all types of another package. The only type `Foo` of its own package stands inside
`Outer`. The name is qualified all the same, to one that no type has. -/
theorem nested_type_settles_name :
    besideWildcard.file? ⟨"A.java"⟩ = some importingAll ∧ importingAll.hasWildcard = true ∧
      importingAll.importOf? "Foo" = none ∧ besideWildcard.localType? ⟨"A.java"⟩ "Foo" = none ∧
      besideWildcard.qualifyType? ⟨"A.java"⟩ "Foo" = some "p.Foo" ∧
      ∀ t ∈ besideWildcard.types, besideWildcard.qualifiedName? t ≠ some "p.Foo" := by
  refine ⟨rfl, rfl, ?_, ?_, ?_, ?_⟩ <;> decide

end Project

end AdLint
