import AdLint.Proofs.Assembly
import AdLint.Proofs.QualifiedNames
import AdLint.Proofs.RoomScan

/-!
# Databases that the registration class lists

A database counts as registered if a field of a registration class has its type. The fields are
looked up by the simple name that is written for their type, and only then are qualified names
compared. Both names of a field come from one written type, but on different ways: the simple name
is cut off from what is written, and the qualified name is looked up in the types of the file, its
imports and its package. The two end in the same name at every level but one. An import may give a
type another name, and then a field of that name has the qualified type of the database and is not
found.

## Main definitions

* `Project.Renamed`: a name that an import gives to a type of another name
* `RoomScan.unlisted`: the databases that no field of a registration class lists

## Main results

* `TypeName.compact_simple`: the simple name of a written type ends the name that is looked up
* `Project.Qualifies.lastDotted_eq_iff`: a qualified name ends in the name that was looked up,
  unless it is renamed
* `RoomScan.filter_run_eq`: the databases reported as not registered
* `RoomScan.listed_unless_renamed`: a field of the qualified type of a database registers it, unless
  it is renamed
-/

namespace AdLint

/-! ## Simple names of written types -/

namespace Text

theorem filter_dropWhile {α : Type} {p keep : α → Bool} (h : ∀ x, p x = true → keep x = false)
    (xs : List α) :
    (xs.dropWhile p).filter keep = xs.filter keep := by
  induction xs with
  | nil => rfl
  | cons x xs ih =>
    cases hp : p x with
    | false => rw [List.dropWhile_cons_of_neg (by simp [hp])]
    | true => rw [List.dropWhile_cons_of_pos hp, ih, List.filter_cons_of_neg (by simp [h x hp])]

theorem afterLast_filter {α : Type} [BEq α] [LawfulBEq α] {sep : α} {keep : α → Bool}
    (h : keep sep = true)
    (xs : List α) : afterLast sep (xs.filter keep) = (afterLast sep xs).filter keep := by
  -- the walk back ends at the separator, which is kept
  have hstop : (fun x => !keep x || !(x == sep)) = fun x => !(x == sep) := by
    funext x
    by_cases hx : x = sep
    · simp [hx, h]
    · simp [hx]
  rw [afterLast, afterLast, ← List.filter_reverse, List.takeWhile_filter, hstop,
    List.filter_reverse]

/-- Blanks at the ends are among those that are taken out. -/
theorem filter_trimChars (cs : List Char) :
    ((trimChars cs).filter fun c => !isBlank c) = cs.filter fun c => !isBlank c := by
  have hblank : ∀ c, isBlank c = true → (!isBlank c) = false := by simp
  rw [trimChars, trimEndChars, dropEndWhile, List.filter_reverse, filter_dropWhile hblank,
    ← List.filter_reverse, List.reverse_reverse, trimStartChars, filter_dropWhile hblank]

end Text

namespace TypeName

/-- **The simple name of a written type ends the name by which it is looked up**, apart from
blanks. -/
theorem compact_simple (written : String) :
    Text.compact (simple written) = Text.lastDotted (sought written) := by
  have hlast : ∀ cs : List Char, ((Text.afterLast '.' cs).filter fun c => !Text.isBlank c) =
      Text.afterLast '.' (cs.filter fun c => !Text.isBlank c) := fun cs =>
    (Text.afterLast_filter (by decide) cs).symm
  rw [Text.compact, simple, Text.lastDotted, sought, Text.compact, String.toList_ofList,
    String.toList_ofList, String.toList_ofList, Text.filter_trimChars, hlast, Text.filter_trimChars]

theorem IsPlain.simple_eq {name : String} (h : IsPlain name) : simple name = name := by
  rw [simple, h.bare_eq, Text.trimChars_eq_self h.noBlank, Text.afterLast_eq_self h.noDot,
    Text.trimChars_eq_self h.noBlank, String.ofList_toList]

end TypeName

/-! ## The last part of a qualified name -/

namespace Project

variable {p : Project} {file : Path} {name written qualified : String} {d : Declaration}

/-- An import decides about the name in the file, and gives it to a type of another name. -/
def Renamed (p : Project) (file : Path) (name : String) : Prop :=
  '.' ∉ name.toList ∧ p.localType? file name = none ∧
    ∃ context i, p.file? file = some context ∧ context.FirstImport name i ∧
      Text.lastDotted i.path ≠ name

theorem Distinct.name_of_localType? (hp : p.Distinct) (h : p.localType? file name = some d) :
    d.name = name := by
  have hmem := List.mem_of_find?_eq_some h
  rw [typesNamed, hp.current_filter, List.mem_filter] at hmem
  simpa using (Bool.and_eq_true_iff.mp hmem.2).2

/-- **A qualified name ends in the name that was looked up**, unless an import renames. -/
theorem Qualifies.lastDotted_eq_iff (hp : p.Distinct) (h : p.Qualifies file name qualified) :
    Text.lastDotted qualified = Text.lastDotted name ↔ ¬ p.Renamed file name := by
  cases h with
  | spelled hdot _ hself =>
    rw [hself]
    exact iff_of_true rfl fun hrenamed => hrenamed.1 (hself ▸ hdot)
  | declared _ hlocal hname =>
    rw [lastDotted_of_qualifiedName? hname, hp.name_of_localType? hlocal]
    refine iff_of_true rfl fun hrenamed => ?_
    rw [hrenamed.2.1] at hlocal
    cases hlocal
  | imported hplain hlocal hfile himport hpath =>
    rw [← hpath, Text.lastDotted_eq_self hplain]
    constructor
    · rintro heq ⟨-, -, context', j, hfile', hfirst, hne⟩
      rw [hfile] at hfile'
      cases hfile'
      rw [SourceFile.importOf?_eq_some_iff.mpr hfirst] at himport
      cases himport
      exact hne heq
    · intro hkept
      by_contra hne
      exact hkept ⟨hplain, hlocal, _, _, hfile, SourceFile.importOf?_eq_some_iff.mp himport, hne⟩
  | packaged _ _ hfile himport _ _ hname =>
    rw [← hname, Text.lastDotted_append_dot]
    refine iff_of_true rfl ?_
    rintro ⟨-, -, context', j, hfile', hfirst, -⟩
    rw [hfile] at hfile'
    cases hfile'
    rw [SourceFile.importOf?_eq_some_iff.mpr hfirst] at himport
    cases himport

/-- A written type that has the qualified name of a declaration has its simple name too, unless
an import renames. -/
theorem simple_eq_iff (hp : p.Distinct)
    (hblank : ∀ c ∈ (TypeName.simple written).toList, Text.isBlank c = false)
    (hplain : TypeName.IsPlain d.name) (hwritten : p.qualifyType? file written = some qualified)
    (hd : p.qualifiedName? d = some qualified) :
    TypeName.simple written = TypeName.simple d.name ↔
      ¬ p.Renamed file (TypeName.sought written) := by
  rw [← (qualifyType?_eq_some_iff.mp hwritten).lastDotted_eq_iff hp,
    lastDotted_of_qualifiedName? hd, Text.lastDotted_eq_self hplain.noDot, hplain.simple_eq,
    ← TypeName.compact_simple, Text.compact_eq_self hblank]
  exact eq_comm

end Project

/-! ## Databases that are reported -/

namespace RoomScan

variable {p : Project} {room : RoomSettings} {d : Declaration}

/-- The databases that no field of a registration class lists. -/
def unlisted (p : Project) (room : RoomSettings) : List Declaration :=
  (tracked p room).filter fun d => !isRegistered p (Registration.collect p room.registrationClass) d

theorem mem_unlisted_iff :
    d ∈ unlisted p room ↔ d ∈ tracked p room ∧ ¬ p.Registers room.registrationClass d := by
  rw [unlisted, List.mem_filter]
  refine and_congr_right fun hd => ?_
  rw [Bool.not_eq_true', ← Bool.not_eq_true,
    isRegistered_iff (Project.find?_of_mem_declarations (List.mem_filter.mp hd).1)]

/-- **The databases reported as not registered** are those that are not listed, if there is a
registration class. -/
theorem filter_run_eq (h : ∃ c ∈ p.types, c.name = room.registrationClass) :
    ((start p room).run.filter fun f => f.rule == .databaseUnregistered) =
      (unlisted p room).map (unregistered room) := by
  have hinspected : (((tracked p room).flatMap fun d => (Database.inspect p room d).findings).filter
      fun f => f.rule == .databaseUnregistered) = [] := by
    refine List.filter_eq_nil_iff.mpr fun f hf hrule => ?_
    obtain ⟨d, -, hf⟩ := List.mem_flatMap.mp hf
    have hmem := Database.rule_mem_of_mem_inspect hf
    rw [beq_iff_eq.mp hrule] at hmem
    exact absurd hmem (by decide)
  have hverified :
      verified p room (tracked p room) = (unlisted p room).map (unregistered room) := by
    simp only [verified, Registration.isFound_collect_iff.mpr h, if_true, unlisted]
  have hsecond : (if (tracked p room).isEmpty then [] else verified p room (tracked p room)) =
      (unlisted p room).map (unregistered room) := by
    rw [hverified]
    split
    · next hempty => rw [unlisted, List.isEmpty_iff.mp hempty, List.filter_nil, List.map_nil]
    · rfl
  rw [run_start, List.filter_append, hinspected, List.nil_append, hsecond]
  refine List.filter_eq_self.mpr fun f hf => ?_
  obtain ⟨d, -, rfl⟩ := List.mem_map.mp hf
  rfl

/-- **A field of the qualified type of a database registers it, unless an import renames the type.**
The scan reports exactly the databases that no field registers, each once and in order. Take a field
that counts and a database, where the type written for the field and the name of the database are
the same qualified name. If the simple names are the same too, then the database is listed. They are
the same if and only if what is written for the field is not renamed by an import; this supposes
that no two declarations are one, that there are no blanks in the simple name of the field, and that
the database has a plain name. -/
theorem listed_unless_renamed (p : Project) (room : RoomSettings) {c t field d : Declaration}
    {written qualified : String} (hclass : c ∈ p.types) (hname : c.name = room.registrationClass)
    (hnested : p.Nested c t) (hfield : field ∈ p.fieldsOf t)
    (hwritten : field.typeName = some written)
    (hd : d ∈ tracked p room) (htype : p.qualifyType? field.location.file written = some qualified)
    (hdatabase : p.qualifiedName? d = some qualified) :
    ((start p room).run.filter fun f => f.rule == .databaseUnregistered) =
        (unlisted p room).map (unregistered room) ∧
      (d ∈ unlisted p room ↔ ¬ p.Registers room.registrationClass d) ∧
      (TypeName.simple written = TypeName.simple d.name → d ∉ unlisted p room) ∧
      (p.Distinct → (∀ ch ∈ (TypeName.simple written).toList, Text.isBlank ch = false) →
        TypeName.IsPlain d.name →
        (TypeName.simple written = TypeName.simple d.name ↔
          ¬ p.Renamed field.location.file (TypeName.sought written))) := by
  refine ⟨filter_run_eq ⟨c, hclass, hname⟩, ?_, ?_, fun hp hblank hplain => ?_⟩
  · rw [mem_unlisted_iff]
    exact and_iff_right hd
  · intro hsimple hunlisted
    refine (mem_unlisted_iff.mp hunlisted).2 ⟨c, hclass, hname, t, hnested, field, hfield, written,
      hwritten, ?_⟩
    exact ⟨hsimple, .inr (.inr (htype.trans hdatabase.symm))⟩
  · exact Project.simple_eq_iff hp hblank hplain htype hdatabase

/-- A database in a package of its own. -/
def topicsDatabase : Declaration where
  id := ⟨⟨"Topics.java"⟩, 15, 74⟩
  name := "TopicsDatabase"
  kind := .classType
  location := ⟨⟨"Topics.java"⟩, 3, 1, 15, 74⟩
  language := .java
  superTypes := ["RoomDatabase"]

/-- The class that registers it. -/
def registrationClass : Declaration where
  id := ⟨⟨"App.kt"⟩, 52, 122⟩
  name := "RoomDatabaseRegistration"
  kind := .classType
  location := ⟨⟨"App.kt"⟩, 5, 1, 52, 122⟩
  language := .kotlin

/-- A field of this class, of the given type. -/
def registeringField (written : String) : Declaration where
  id := ⟨⟨"App.kt"⟩, 89, 118⟩
  name := "topics"
  kind := .field
  location := ⟨⟨"App.kt"⟩, 6, 9, 89, 118⟩
  language := .kotlin
  parent := some registrationClass.id
  typeName := some written

/-- The database and the class, in a file that imports the database and may give it a name. -/
def registering (localName : Option String) (written : String) : Project :=
  (((((({} : Project).addFile
    { path := ⟨"Topics.java"⟩, language := .java, package := some "data" }).addFile
    { path := ⟨"App.kt"⟩
      language := .kotlin
      package := some "app"
      imports := [⟨"data.TopicsDatabase", false, localName⟩] }).addDeclaration
    topicsDatabase).addDeclaration registrationClass).addDeclaration (registeringField written))

/-- Under its own name the database is listed, in whatever layout the name is written. -/
theorem listed_unless_renamed_topicsDatabase :
    let p := registering none " TopicsDatabase ?"
    topicsDatabase ∈ tracked p {} ∧ topicsDatabase ∉ unlisted p {} ∧
    ¬ p.Renamed ⟨"App.kt"⟩ "TopicsDatabase" := by
  intro p
  have hp : p.added.Pairwise fun a b => a.id.same b.id = false := by decide
  have hclass : registrationClass ∈ p.types := List.mem_cons_of_mem _ List.mem_cons_self
  have hfield : registeringField " TopicsDatabase ?" ∈ p.fieldsOf registrationClass :=
    List.mem_cons_self
  have hd : topicsDatabase ∈ tracked p {} := List.mem_cons_self
  have htype : p.qualifyType? ⟨"App.kt"⟩ " TopicsDatabase ?" = some "data.TopicsDatabase" := by
    decide
  have hdatabase : p.qualifiedName? topicsDatabase = some "data.TopicsDatabase" := by decide
  have hsimple : TypeName.simple " TopicsDatabase ?" = "TopicsDatabase" := by decide
  have hplain : TypeName.IsPlain "TopicsDatabase" := by decide
  obtain ⟨-, -, hlisted, hrenamed⟩ :=
    listed_unless_renamed p {} hclass rfl .refl hfield rfl hd htype hdatabase
  refine ⟨hd, hlisted (by decide), ?_⟩
  have hkept := (hrenamed hp (hsimple.symm ▸ hplain.noBlank) hplain).mp (by decide)
  have hsought : TypeName.sought " TopicsDatabase ?" = "TopicsDatabase" := by decide
  exact hsought ▸ hkept

/-- **A database that is imported under another name is reported.** The type of the field is the
database, and both have one qualified name; but the field is looked up by the name that the import
gives. -/
theorem renamed_database_unlisted :
    let p := registering (some "Topics") "Topics?"
    (registrationClass ∈ p.types ∧ registeringField "Topics?" ∈ p.fieldsOf registrationClass) ∧
      p.qualifyType? ⟨"App.kt"⟩ "Topics?" = some "data.TopicsDatabase" ∧
      topicsDatabase ∈ tracked p {} ∧ p.qualifiedName? topicsDatabase = some "data.TopicsDatabase" ∧
      unregistered {} topicsDatabase ∈ (start p {}).run := by
  intro p
  have hclass : registrationClass ∈ p.types := List.mem_cons_of_mem _ List.mem_cons_self
  have hunlisted : topicsDatabase ∈ unlisted p {} := List.mem_cons_self
  refine ⟨⟨hclass, List.mem_cons_self⟩, by decide, List.mem_cons_self, by decide, ?_⟩
  have hreported := List.mem_map_of_mem (f := unregistered {}) hunlisted
  rw [← filter_run_eq ⟨registrationClass, hclass, rfl⟩] at hreported
  exact List.mem_of_mem_filter hreported

end RoomScan

end AdLint
