import AdLint.FileKind
import AdLint.Proofs.Components
import Mathlib.Data.List.Forall2

/-!
# The elements of a manifest

A manifest is a tree of elements. Its components are the elements of some names that stand in the
application, at any depth. The survey of a manifest sees no tree but the tags one after the other,
and it remembers in one bit whether the application is open. As long as no application stands in
another one, the bit is what a look at the elements around a tag would say.

A text that is no markup is found out wherever the mistake is: the reader takes piece after piece,
and a piece that it cannot take leaves nothing of the pieces before it.

## Main definitions

* `Element`: an element with the elements in it
* `Element.tags`: the tags of an element in the order of the text
* `Element.listing`: the elements of a tree in the order of the text, with the elements around them
* `ClassOf`: the class that a component names
* `Standing.Reads`, `Standing.Fails`: how the reader goes on, and where it reports an error
* `WellFormed`, `FailsOn`: the texts that are markup, and those on which the reader reports an error

## Main results

* `foldl_tags`: a survey of an element adds its components and is otherwise unchanged
* `qualify_eq_iff`: the class that a component names
* `Standing.fails_or_goes_on`: what one step of the reader can do
* `pieces_eq_error_iff`: a text is no markup if the reader fails anywhere
* `components_exact`: the components of a manifest are the elements of their names in the
  application, and a text on which the reader reports an error has none
-/

namespace AdLint.Manifest

/-! ## Elements -/

/-- An element of a manifest. -/
inductive Element where
  /-- An element whose tag closes it too. -/
  | empty (tag : Tag) (hempty : tag.isEmpty = true)
  /-- An element with the elements between its two tags. -/
  | full (tag : Tag) (hopen : tag.isEmpty = false) (parts : List Element)

namespace Element

/-- The tag that opens an element. -/
def tag : Element → Tag
  | empty tag _ => tag
  | full tag _ _ => tag

mutual

/-- The tags of an element in the order of the text. -/
def tags : Element → List Piece
  | empty tag _ => [.opening tag]
  | full tag _ parts => .opening tag :: (tagsOf parts ++ [.closing tag.name])

/-- The tags of elements that follow one another. -/
def tagsOf : List Element → List Piece
  | [] => []
  | e :: es => e.tags ++ tagsOf es

end

mutual

/-- The elements of a tree in the order of the text. Each comes with the names of the elements
around it, innermost first. -/
def listing (around : List String) : Element → List (List String × Tag)
  | empty tag _ => [(around, tag)]
  | full tag _ parts => (around, tag) :: listingOf (tag.name :: around) parts

/-- The elements of some trees that follow one another. -/
def listingOf (around : List String) : List Element → List (List String × Tag)
  | [] => []
  | e :: es => e.listing around ++ listingOf around es

end

/-- No application stands in another one. -/
def ApplicationsApart (entries : List (List String × Tag)) : Prop :=
  ∀ entry ∈ entries, entry.2.name = "application" → "application" ∉ entry.1

/-- An element is the root of a manifest: it is the one element of its name, and no application
stands in another one. -/
structure IsManifest (root : Element) : Prop where
  named : root.tag.name = "manifest"
  once : ((root.listing []).map fun entry => entry.2.name).count "manifest" = 1
  apart : ApplicationsApart (root.listing [])

/-- Whether an element lists a component: it has one of some names and stands in an application. -/
def isComponent (entry : List String × Tag) : Bool :=
  entry.1.contains "application" && componentTags.contains entry.2.name

/-- The tags of the elements that list a component. -/
def listed (entries : List (List String × Tag)) : List Tag :=
  (entries.filter isComponent).map Prod.snd

theorem listed_append (xs ys : List (List String × Tag)) :
    listed (xs ++ ys) = listed xs ++ listed ys := by
  rw [listed, List.filter_append, List.map_append]
  rfl

/-- The manifest and the application list no component themselves. -/
theorem listed_cons_of_not_mem {entry : List String × Tag} (entries : List (List String × Tag))
    (h : entry.2.name ∉ componentTags) : listed (entry :: entries) = listed entries := by
  rw [listed, List.filter_cons_of_neg (by simp [isComponent, h])]
  rfl

end Element

/-! ## A survey of elements -/

section Survey

open Element

variable {path : Path} {s : Survey} {around : List String} {tag : Tag}

/-- The survey with the components that some elements list. -/
def Survey.adding (path : Path) (s : Survey) (ts : List Tag) : Survey :=
  { s with components := s.components ++ ts.map (componentOf path s.package) }

theorem Survey.adding_nil (path : Path) (s : Survey) : s.adding path [] = s := by
  simp [adding]

theorem Survey.adding_adding (path : Path) (s : Survey) (ts us : List Tag) :
    (s.adding path ts).adding path us = s.adding path (ts ++ us) := by
  simp [adding]

theorem step_application (h : tag.name = "application") :
    s.step path (.opening tag) = { s with inApplication := !tag.isEmpty } := by
  rw [Survey.step, h]
  rfl

/-- The tag of another element adds the component that it lists. -/
theorem step_opening (hbit : s.inApplication = around.contains "application")
    (hmanifest : tag.name ≠ "manifest") (happlication : tag.name ≠ "application") :
    s.step path (.opening tag) = s.adding path (listed [(around, tag)]) := by
  have hcomponent :
      (s.inApplication && componentTags.contains tag.name) = isComponent (around, tag) := by
    rw [hbit]
    rfl
  rw [Survey.step, if_neg (by simpa using hmanifest), if_neg (by simpa using happlication),
    hcomponent]
  split
  · next h =>
    rw [listed, List.filter_cons_of_pos h]
    rfl
  · next h =>
    rw [listed, List.filter_cons_of_neg h]
    exact (s.adding_nil path).symm

mutual

/-- **A survey of an element adds the components that it lists**, and is otherwise unchanged: before
and after the element its bit says whether an application stands around. -/
theorem foldl_tags (path : Path) : ∀ (e : Element) (around : List String) (s : Survey),
    s.inApplication = around.contains "application" → ApplicationsApart (e.listing around) →
      (∀ entry ∈ e.listing around, entry.2.name ≠ "manifest") →
        e.tags.foldl (Survey.step path) s = s.adding path (listed (e.listing around))
  | .empty tag hempty, around, s, hbit, hapart, hmanifest => by
    rw [tags, listing, List.foldl_cons, List.foldl_nil]
    by_cases happlication : tag.name = "application"
    · -- the bit is not set around an application, and an empty one does not set it
      have haround := hapart _ List.mem_cons_self happlication
      have hclear : s.inApplication = false := by simpa [hbit] using haround
      rw [step_application happlication, listed_cons_of_not_mem [] (by rw [happlication]; decide),
        hempty, show listed [] = [] from rfl, s.adding_nil, Bool.not_true, ← hclear]
    · exact step_opening hbit (hmanifest _ List.mem_cons_self) happlication
  | .full tag hopen parts, around, s, hbit, hapart, hmanifest => by
    have hinner : ∀ s : Survey, s.inApplication = (tag.name :: around).contains "application" →
        (tagsOf parts).foldl (Survey.step path) s =
          s.adding path (listed (listingOf (tag.name :: around) parts)) := fun s hbit =>
      foldl_tagsOf path parts (tag.name :: around) s hbit
        (fun entry h => hapart entry (List.mem_cons_of_mem _ h))
        (fun entry h => hmanifest entry (List.mem_cons_of_mem _ h))
    rw [tags, listing, List.foldl_cons, List.foldl_append]
    by_cases happlication : tag.name = "application"
    · have haround := hapart _ List.mem_cons_self happlication
      have hclear : s.inApplication = false := by simpa [hbit] using haround
      rw [step_application happlication, hinner _ (by simp [happlication, hopen]),
        listed_cons_of_not_mem _ (by rw [happlication]; decide)]
      -- the tag at the end clears the bit again
      simp [Survey.step, Survey.adding, happlication, hclear]
    · have hsame : (tag.name :: around).contains "application" = around.contains "application" := by
        simp [Ne.symm happlication]
      rw [step_opening hbit (hmanifest _ List.mem_cons_self) happlication,
        hinner (s.adding path (listed [(around, tag)])) (hbit.trans hsame.symm),
        Survey.adding_adding, ← listed_append]
      simp [Survey.step, happlication]

theorem foldl_tagsOf (path : Path) : ∀ (es : List Element) (around : List String) (s : Survey),
    s.inApplication = around.contains "application" → ApplicationsApart (listingOf around es) →
      (∀ entry ∈ listingOf around es, entry.2.name ≠ "manifest") →
        (tagsOf es).foldl (Survey.step path) s = s.adding path (listed (listingOf around es))
  | [], _, s, _, _, _ => (s.adding_nil path).symm
  | e :: es, around, s, hbit, hapart, hmanifest => by
    have hfirst := foldl_tags path e around s hbit
      (fun entry h => hapart entry (List.mem_append_left _ h))
      (fun entry h => hmanifest entry (List.mem_append_left _ h))
    have hrest := foldl_tagsOf path es around (s.adding path (listed (e.listing around))) hbit
      (fun entry h => hapart entry (List.mem_append_right _ h))
      (fun entry h => hmanifest entry (List.mem_append_right _ h))
    rw [tagsOf, List.foldl_append, listingOf, hfirst, hrest, Survey.adding_adding, listed_append]

end

/-- **The survey of a manifest**: its package is that of the root, and its components are those that
the elements list. -/
theorem foldl_tags_root {root : Element} (h : root.IsManifest) :
    root.tags.foldl (Survey.step path) {} =
      ({ package := root.tag.attribute? "package" } : Survey).adding path
        (listed (root.listing [])) := by
  obtain ⟨hroot, hone, hapart⟩ := h
  have hstep : ∀ tag : Tag, tag.name = "manifest" →
      ({} : Survey).step path (.opening tag) = { package := tag.attribute? "package" } := by
    intro tag htag
    rw [Survey.step, htag]
    rfl
  cases root with
  | empty tag hempty =>
    rw [Element.tag] at hroot
    rw [tags, listing, List.foldl_cons, List.foldl_nil, hstep tag hroot,
      listed_cons_of_not_mem [] (by rw [hroot]; decide)]
    exact (Survey.adding_nil path _).symm
  | full tag hopen parts =>
    rw [Element.tag] at hroot
    rw [listing, List.map_cons, hroot, List.count_cons_self, Nat.add_eq_right,
      List.count_eq_zero] at hone
    have hmanifest : ∀ entry ∈ listingOf ["manifest"] parts, entry.2.name ≠ "manifest" :=
      fun entry h heq => hone (List.mem_map.mpr ⟨entry, h, heq⟩)
    have hclear : false = ["manifest"].contains "application" := by decide
    have hparts :=
      foldl_tagsOf path parts ["manifest"] { package := tag.attribute? "package" } hclear
      (fun entry h => hapart entry (List.mem_cons_of_mem _ (by rwa [hroot]))) hmanifest
    rw [tags, listing, List.foldl_cons, List.foldl_append, hstep tag hroot, hroot, hparts,
      listed_cons_of_not_mem _ (by rw [hroot]; decide)]
    rfl

end Survey

/-! ## The class that a component names -/

section Classes

theorem afterStart?_eq_some_iff {start cs rest : List Char} :
    Text.afterStart? start cs = some rest ↔ cs = start ++ rest := by
  induction start generalizing cs with
  | nil => simp [Text.afterStart?]
  | cons d ds ih =>
    cases cs with
    | nil => simp [Text.afterStart?]
    | cons c cs =>
      rw [Text.afterStart?, List.cons_append, List.cons.injEq, ← ih]
      by_cases h : d = c
      · simp [h]
      · simp [h, Ne.symm h]

theorem beginsWith_iff {s start : String} :
    Text.beginsWith s start = true ↔ ∃ rest, s = start ++ rest := by
  rw [Text.beginsWith, Option.isSome_iff_exists]
  constructor
  · rintro ⟨rest, h⟩
    refine ⟨String.ofList rest, String.toList_injective ?_⟩
    rw [afterStart?_eq_some_iff.mp h, String.toList_append, String.toList_ofList]
  · rintro ⟨rest, rfl⟩
    exact ⟨rest.toList, afterStart?_eq_some_iff.mpr String.toList_append⟩

/-- The class that a written name stands for in a manifest with or without a package. -/
inductive ClassOf : Option String → String → String → Prop
  | unpackaged (name : String) : ClassOf none name name
  /-- A name that starts with a dot is appended to the package. -/
  | relative (package rest : String) : ClassOf (some package) ("." ++ rest)
      (package ++ ("." ++ rest))
  /-- A name without dots is joined to the package with one. -/
  | bare (package name : String) (hne : name ≠ "") (hdot : '.' ∉ name.toList) :
      ClassOf (some package) name (package ++ "." ++ name)
  /-- Any other name stands for itself. -/
  | absolute (package name : String) (hstart : ∀ rest, name ≠ "." ++ rest)
      (hdot : name = "" ∨ '.' ∈ name.toList) : ClassOf (some package) name name

/-- **The class that a component names.** -/
theorem qualify_eq_iff {package : Option String} {written name : String} :
    qualify package written = name ↔ ClassOf package written name := by
  constructor
  · rintro rfl
    cases package with
    | none => exact .unpackaged written
    | some package =>
      rw [qualify]
      split
      · next hrelative =>
        obtain ⟨rest, rfl⟩ := beginsWith_iff.mp hrelative
        exact .relative package rest
      · next hrelative =>
        have hstart : ∀ rest, written ≠ "." ++ rest :=
          fun rest h => hrelative (beginsWith_iff.mpr ⟨rest, h⟩)
        split
        · next hbare =>
          simp only [Bool.and_eq_true, bne_iff_ne, Bool.not_eq_true', List.contains_eq_mem,
            decide_eq_false_iff_not] at hbare
          exact .bare package written hbare.1 hbare.2
        · next hbare =>
            exact .absolute package written hstart (by simpa [or_iff_not_imp_left] using hbare)
  · intro h
    cases h with
    | unpackaged => rfl
    | relative package rest => rw [qualify, if_pos (beginsWith_iff.mpr ⟨rest, rfl⟩)]
    | bare package _ hne hdot =>
      have hrelative : ¬ Text.beginsWith written "." = true := by
        rw [beginsWith_iff]
        rintro ⟨rest, rfl⟩
        simp at hdot
      rw [qualify, if_neg hrelative, if_pos (by simp [hne, hdot])]
    | absolute package _ hstart hdot =>
      have hrelative : ¬ Text.beginsWith written "." = true := by
        rw [beginsWith_iff]
        rintro ⟨rest, h⟩
        exact hstart rest h
      rw [qualify, if_neg hrelative, if_neg (by simpa [or_iff_not_imp_left] using hdot)]

end Classes

/-! ## How a text is read -/

/-- Where the reader of a text stands: the names of the open elements, innermost first, the place,
and the characters that are left. -/
structure Standing where
  opened : List String
  place : Place
  rest : List Char

namespace Standing

/-- Where the reader stands behind some characters. -/
def beyond (st : Standing) (taken : List Char) : Standing :=
  { st with place := st.place.advanceAll taken, rest := st.rest.drop taken.length }

/-- The reader gets from one point to another and finds some tags on its way. An end tag closes the
innermost open element. -/
inductive Reads (lag : Nat) : Standing → List Piece → Standing → Prop
  | here (st : Standing) : Reads lag st [] st
  | other {st st' : Standing} {taken : List Char} {ps : List Piece} (hrest : st.rest ≠ [])
      (hnext : next lag st.place st.rest = .ok (.other, taken))
      (h : Reads lag (st.beyond taken) ps st') :
      Reads lag st ps st'
  | opening {st st' : Standing} {taken : List Char} {tag : Tag} {ps : List Piece}
      (hrest : st.rest ≠ [])
      (hnext : next lag st.place st.rest = .ok (.opening tag, taken))
      (h : Reads lag { st.beyond taken with
        opened := if tag.isEmpty then st.opened else tag.name :: st.opened } ps st') :
      Reads lag st (.opening tag :: ps) st'
  | closing {st st' : Standing} {taken : List Char} {name : String} {opened : List String}
      {ps : List Piece}
      (hrest : st.rest ≠ []) (hnext : next lag st.place st.rest = .ok (.closing name, taken))
      (hopened : st.opened = name :: opened)
      (h : Reads lag { st.beyond taken with opened } ps st') :
      Reads lag st (.closing name :: ps) st'

/-- The reader reports an error: there is no piece where it stands, or an end tag that does not fit
the innermost open element. -/
inductive Fails (lag : Nat) (st : Standing) : MarkupError → Prop
  | piece {e : MarkupError} (hrest : st.rest ≠ []) (hnext : next lag st.place st.rest = .error e) :
      Fails lag st e
  | misplaced {taken : List Char} {name : String} (hrest : st.rest ≠ [])
      (hnext : next lag st.place st.rest = .ok (.closing name, taken))
      (hopened : st.opened.head? ≠ some name) : Fails lag st .misplacedEnd

/-- What the reader finds from a point on, in at most `n` pieces. -/
def tags (lag n : Nat) (st : Standing) : Except MarkupError (List Piece) :=
  piecesAux lag n st.opened st.place st.rest

end Standing

/-- Every piece takes a character. -/
theorem taken_ne_nil {lag : Nat} {place : Place} {cs taken : List Char} {piece : Piece}
    (hcs : cs ≠ [])
    (h : next lag place cs = .ok (piece, taken)) : taken ≠ [] := by
  unfold next at h
  split at h
  · cases hdeclaration : declaration _ with
    | error e =>
      rw [hdeclaration] at h
      cases h
    | ok taken =>
      rw [hdeclaration] at h
      cases h
      exact List.cons_ne_nil _ _
  · cases h
  · split at h <;> cases h
    exact List.cons_ne_nil _ _
  · split at h <;> cases h
    exact List.cons_ne_nil _ _
  · split at h <;> cases h
    exact List.cons_ne_nil _ _
  · dsimp only at h
    split at h <;> cases h
    exact List.cons_ne_nil _ _
  · next htag hreference =>
    cases h
    cases cs with
    | nil => exact absurd rfl hcs
    | cons c cs =>
      have hc : (!(c == '<' || c == '&')) = true := by
        have htag : c ≠ '<' := fun heq => htag cs (by rw [heq])
        have hreference : c ≠ '&' := fun heq => hreference cs (by rw [heq])
        simp [htag, hreference]
      rw [List.takeWhile_cons, if_pos hc]
      exact List.cons_ne_nil _ _

namespace Standing

variable {lag n : Nat} {st st' : Standing} {ps : List Piece} {e : MarkupError}

theorem length_beyond {taken : List Char} {piece : Piece} (hrest : st.rest ≠ [])
    (hnext : next lag st.place st.rest = .ok (piece, taken)) :
    (st.beyond taken).rest.length < st.rest.length := by
  have hpos := List.length_pos_iff.mpr hrest
  have htaken := List.length_pos_iff.mpr (taken_ne_nil hrest hnext)
  rw [beyond, List.length_drop]
  omega

/-! One piece of a text, by its kind. -/

theorem tags_of_fails (h : st.Fails lag e) (n : Nat) : st.tags lag (n + 1) = .error e := by
  cases h with
  | piece hrest hnext =>
    rw [tags, piecesAux, hnext]
    · rfl
    · exact hrest
  | @misplaced _ name hrest hnext hopened =>
    rw [tags, piecesAux, hnext]
    · cases hstack : st.opened with
      | nil => rfl
      | cons innermost opened =>
        have hname : ¬ (innermost == name) = true := by simpa [hstack] using hopened
        exact if_neg hname
    · exact hrest

theorem tags_of_other {taken : List Char} (hrest : st.rest ≠ [])
    (hnext : next lag st.place st.rest = .ok (.other, taken)) :
    st.tags lag (n + 1) = (st.beyond taken).tags lag n := by
  rw [tags, piecesAux, hnext]
  · rfl
  · exact hrest

theorem tags_of_opening {taken : List Char} {tag : Tag} (hrest : st.rest ≠ [])
    (hnext : next lag st.place st.rest = .ok (.opening tag, taken)) :
    st.tags lag (n + 1) =
      (tags lag n { st.beyond taken with
        opened := if tag.isEmpty then st.opened else tag.name :: st.opened }).map
          (.opening tag :: ·) := by
  rw [tags, piecesAux, hnext]
  · rfl
  · exact hrest

theorem tags_of_closing {taken : List Char} {name : String} {opened : List String}
    (hrest : st.rest ≠ [])
    (hnext : next lag st.place st.rest = .ok (.closing name, taken))
    (hopened : st.opened = name :: opened) :
    st.tags lag (n + 1) =
      (tags lag n { st.beyond taken with opened }).map (.closing name :: ·) := by
  rw [tags, piecesAux, hnext, hopened]
  · exact if_pos (beq_self_eq_true name)
  · exact hrest

/-- What the reader found on its way is in front of what it finds from there on. The number of
characters is enough for all pieces. -/
theorem tags_of_reads (h : Reads lag st ps st') (hn : st.rest.length ≤ n) :
    ∃ m, st'.rest.length ≤ m ∧ st.tags lag n = (st'.tags lag m).map (ps ++ ·) := by
  have hsucc : ∀ {st : Standing} {n : Nat}, st.rest ≠ [] → st.rest.length ≤ n → ∃ m, n = m + 1 := by
    intro st n hrest hn
    have := List.length_pos_iff.mpr hrest
    exact ⟨n - 1, by omega⟩
  induction h generalizing n with
  | here st => exact ⟨n, hn, by cases st.tags lag n <;> rfl⟩
  | other hrest hnext _ ih =>
    obtain ⟨n, rfl⟩ := hsucc hrest hn
    have hshort := length_beyond hrest hnext
    rw [tags_of_other hrest hnext]
    exact ih (by omega)
  | @opening st st' _ _ _ hrest hnext _ ih =>
    obtain ⟨n, rfl⟩ := hsucc hrest hn
    have hshort := length_beyond hrest hnext
    obtain ⟨m, hm, htags⟩ := ih (show (st.beyond _).rest.length ≤ n by omega)
    refine ⟨m, hm, ?_⟩
    rw [tags_of_opening hrest hnext, htags]
    cases st'.tags lag m <;> rfl
  | @closing st st' _ _ _ _ hrest hnext hopened _ ih =>
    obtain ⟨n, rfl⟩ := hsucc hrest hn
    have hshort := length_beyond hrest hnext
    obtain ⟨m, hm, htags⟩ := ih (show (st.beyond _).rest.length ≤ n by omega)
    refine ⟨m, hm, ?_⟩
    rw [tags_of_closing hrest hnext hopened, htags]
    cases st'.tags lag m <;> rfl

/-- **One step of the reader**: it reports an error where it stands, or it goes on behind a
piece. -/
theorem fails_or_goes_on (lag : Nat) (hrest : st.rest ≠ []) :
    (∃ e, st.Fails lag e) ∨ ∃ found on, on.rest.length < st.rest.length ∧
      (∀ n, st.tags lag (n + 1) = (on.tags lag n).map (found ++ ·)) ∧
        ∀ ps st', Reads lag on ps st' → Reads lag st (found ++ ps) st' := by
  cases hnext : next lag st.place st.rest with
  | error e => exact .inl ⟨e, .piece hrest hnext⟩
  | ok found =>
    obtain ⟨piece, taken⟩ := found
    have hshort := length_beyond hrest hnext
    cases piece with
    | other =>
      refine .inr ⟨[], st.beyond taken, hshort, fun n => ?_, fun ps st' h => .other hrest hnext h⟩
      rw [tags_of_other hrest hnext]
      cases (st.beyond taken).tags lag n <;> rfl
    | opening tag =>
      let on : Standing :=
        { st.beyond taken with opened := if tag.isEmpty then st.opened else tag.name :: st.opened }
      exact .inr ⟨[.opening tag], on, hshort, fun n => tags_of_opening hrest hnext,
        fun ps st' h => .opening hrest hnext h⟩
    | closing name =>
      by_cases hfits : st.opened.head? = some name
      · obtain ⟨opened, hopened⟩ := List.head?_eq_some_iff.mp hfits
        exact .inr ⟨[.closing name], { st.beyond taken with opened }, hshort,
          fun n => tags_of_closing hrest hnext hopened, fun ps st' h =>
            .closing hrest hnext hopened h⟩
      · exact .inl ⟨_, .misplaced hrest hnext hfits⟩

/-- An error is reported at some point that the reader gets to. -/
theorem exists_reads_of_error (h : st.tags lag n = .error e) :
    ∃ ps st', Reads lag st ps st' ∧ st'.Fails lag e := by
  induction n generalizing st with
  | zero => cases h
  | succ n ih =>
    have hrest : st.rest ≠ [] := by
      intro hnil
      rw [tags, hnil, piecesAux] at h
      cases h
    rcases fails_or_goes_on lag hrest with ⟨e', hfails⟩ | ⟨found, on, -, htags, hreads⟩
    · rw [tags_of_fails hfails] at h
      cases h
      exact ⟨[], st, .here st, hfails⟩
    · rw [htags, map_eq_error_iff] at h
      obtain ⟨ps, st', hon, hfails⟩ := ih h
      exact ⟨found ++ ps, st', hreads ps st' hon, hfails⟩

/-- Where the reader of a text starts. -/
def start (text : String) : Standing := ⟨[], Place.start, text.toList⟩

end Standing

/-! ## Texts that are markup -/

section Texts

open Standing

variable {lag : Nat} {text : String}

/-- The bytes of a text that are not counted: those of a byte order mark. -/
def lagOf (text : String) : Nat :=
  if text.toList.head? == some '\uFEFF' then '\uFEFF'.utf8Size else 0

/-- The reader of a text reports an error somewhere. -/
def FailsOn (text : String) (e : MarkupError) : Prop :=
  ∃ ps st, Reads (lagOf text) (start text) ps st ∧ st.Fails (lagOf text) e

/-- The reader gets to the end of a text, and every element is closed there. -/
def WellFormed (text : String) : Prop :=
  ∃ ps place, Reads (lagOf text) (start text) ps ⟨[], place, []⟩

theorem pieces_eq_tags (text : String) :
    pieces text = (start text).tags (lagOf text) (start text).rest.length :=
  rfl

/-- **A text is no markup if and only if the reader reports an error somewhere.** -/
theorem pieces_eq_error_iff {e : MarkupError} : pieces text = .error e ↔ FailsOn text e := by
  rw [pieces_eq_tags]
  constructor
  · exact exists_reads_of_error
  · rintro ⟨ps, st, hreads, hfails⟩
    obtain ⟨m, hm, htags⟩ := tags_of_reads hreads le_rfl
    have hpos : 0 < st.rest.length := by
      cases hfails with
      | piece hrest _ => exact List.length_pos_iff.mpr hrest
      | misplaced hrest _ _ => exact List.length_pos_iff.mpr hrest
    obtain ⟨m, rfl⟩ : ∃ k, m = k + 1 := ⟨m - 1, by omega⟩
    rw [htags, tags_of_fails hfails]
    rfl

/-- Tags that close the open elements: before each of their end tags stand whole elements. -/
inductive Closes : List String → List Piece → Prop
  | done (es : List Element) : Closes [] (Element.tagsOf es)
  | close {name : String} {opened : List String} {ps : List Piece} (es : List Element)
      (h : Closes opened ps) :
      Closes (name :: opened) (Element.tagsOf es ++ .closing name :: ps)

theorem Closes.cons {opened : List String} {ps : List Piece} (e : Element) (h : Closes opened ps) :
    Closes opened (e.tags ++ ps) := by
  cases h with
  | done es => exact .done (e :: es)
  | @close name _ _ es h =>
    have hmore : Closes (name :: _) _ := .close (e :: es) h
    rwa [Element.tagsOf, List.append_assoc] at hmore

/-- On its way to a point where every element is closed, the reader finds tags that close the open
elements. -/
theorem closes_of_reads {st st' : Standing} {ps : List Piece} (h : Reads lag st ps st')
    (hclosed : st'.opened = []) : Closes st.opened ps := by
  induction h with
  | here st =>
    rw [hclosed]
    exact .done []
  | other _ _ _ ih => exact ih hclosed
  | @opening st _ _ tag ps _ _ _ ih =>
    have hinner := ih hclosed
    cases hempty : tag.isEmpty with
    | true =>
      simp only [hempty, if_true] at hinner
      exact hinner.cons (.empty tag hempty)
    | false =>
      simp only [hempty, Bool.false_eq_true, if_false] at hinner
      cases hinner with
      | close es h =>
        have hmore := h.cons (.full tag hempty es)
        rwa [Element.tags, List.cons_append, List.append_assoc] at hmore
  | closing _ _ hopened _ ih =>
    rw [hopened]
    exact .close [] (ih hclosed)

/-- **The tags of a well-formed text are those of elements.** -/
theorem exists_tagsOf_of_wellFormed (h : WellFormed text) :
    ∃ es, pieces text = .ok (Element.tagsOf es) := by
  obtain ⟨ps, place, hreads⟩ := h
  obtain ⟨m, -, htags⟩ := tags_of_reads hreads le_rfl
  have hend : Standing.tags (lagOf text) m ⟨[], place, []⟩ = .ok [] := by
    cases m <;> rfl
  have hcloses := closes_of_reads hreads rfl
  rw [pieces_eq_tags, htags, hend]
  generalize hopened : (start text).opened = opened at hcloses
  cases hcloses with
  | done es => exact ⟨es, by simp [Except.map]⟩
  | close => cases hopened

end Texts

/-! ## The components of a manifest -/

/-- The name that a tag gives to its component: one of two attributes, the first of them if it is
there. -/
def Tag.Names (tag : Tag) (written : String) : Prop :=
  tag.attribute? "android:name" = some written ∨
    tag.attribute? "android:name" = none ∧ tag.attribute? "android:targetActivity" = some written

/-- A component is the one that a tag lists in a manifest. -/
structure Lists (path : Path) (package : Option String) (tag : Tag) (c : ManifestComponent) :
    Prop where
  tag_eq : c.tag = tag.name
  name_iff : ∀ name, c.name = some name ↔
    ∃ written, tag.Names written ∧ ClassOf package written name
  process_eq : c.process = tag.attribute? "android:process"
  file_eq : c.location.file = path
  range_eq : c.location.start = tag.span.start.byte ∧ c.location.stop = tag.span.stop

theorem lists_componentOf (path : Path) (package : Option String) (tag : Tag) :
    Lists path package tag (componentOf path package tag) where
  tag_eq := rfl
  name_iff name := by
    have hnames :
        ∀ written, (tag.attribute? "android:name").or (tag.attribute? "android:targetActivity") =
        some written ↔ tag.Names written := fun written => Option.or_eq_some_iff
    rw [componentOf, Option.map_eq_some_iff]
    simp only [hnames, qualify_eq_iff]
  process_eq := rfl
  file_eq := rfl
  range_eq := ⟨rfl, rfl⟩

/-- The outline of a manifest lists the components of its elements. -/
theorem outline_eq_ok_of_tags {path : Path} {text : String} {root : Element}
    (hread : pieces text = .ok root.tags)
    (hroot : root.IsManifest) :
    ∃ o, outline path text = .ok o ∧ o.file.package = root.tag.attribute? "package" ∧
      List.Forall₂ (Lists path (root.tag.attribute? "package")) (Element.listed (root.listing []))
        o.components := by
  refine ⟨_, by rw [outline, hread]; rfl, ?_, ?_⟩
  · rw [foldl_tags_root hroot]
    rfl
  · rw [foldl_tags_root hroot]
    show List.Forall₂ _ _ ([] ++ (Element.listed (root.listing [])).map _)
    rw [List.nil_append, List.forall₂_map_right_iff, List.forall₂_same]
    exact fun tag _ => lists_componentOf path _ tag

/-- **What a manifest contributes.** The tags of a well-formed text are those of elements. If these
are one manifest, it gives a component for each element of some names that stands in the
application, in the order of the text. A text that the reader cannot read to its end gives nothing,
whatever it found there before. -/
theorem components_exact (path : Path) (text : String)
    (hpath : FileKind.ofPath? path = some .manifest)
    (p : Project) (skipped : List (Path × SkipReason)) :
    (WellFormed text → ∃ es, pieces text = .ok (Element.tagsOf es)) ∧
      (∀ root : Element, pieces text = .ok root.tags → root.IsManifest →
        ∃ o, Project.addSource (p, skipped) (path, text) = (p.merge o, skipped) ∧
          o.file.package = root.tag.attribute? "package" ∧
            List.Forall₂ (Lists path (root.tag.attribute? "package"))
              (Element.listed (root.listing []))
              o.components) ∧
        ∀ e, FailsOn text e →
          Project.addSource (p, skipped) (path, text) = (p, skipped ++ [(path, .markup e)]) := by
  refine ⟨exists_tagsOf_of_wellFormed, ?_, ?_⟩
  · intro root hread hroot
    obtain ⟨o, ho, hcontent⟩ := outline_eq_ok_of_tags hread hroot
    refine ⟨o, ?_, hcontent⟩
    rw [Project.addSource, outlineOf, hpath]
    simp only [FileKind.outline, ho]
  · intro e hfails
    have herror : outline path text = .error e := by
      rw [outline, pieces_eq_error_iff.mpr hfails]
      rfl
    rw [Project.addSource, outlineOf, hpath]
    simp only [FileKind.outline, herror]

deriving instance DecidableEq for Tag

deriving instance DecidableEq for Piece

/-- A manifest with activities before, in and below the application. -/
def sampleRoot : Element :=
  .full ⟨"manifest", [("package", "p")], false, ⟨⟨0, 1, 1⟩, 22⟩⟩ rfl
    [.empty ⟨"activity", [], true, ⟨⟨22, 1, 23⟩, 33⟩⟩ rfl,
      .full ⟨"application", [], false, ⟨⟨33, 1, 34⟩, 46⟩⟩ rfl
        [.full ⟨"activity", [("android:name", ".A")], false, ⟨⟨46, 1, 47⟩, 74⟩⟩ rfl
          [.empty ⟨"service", [], true, ⟨⟨74, 1, 75⟩, 84⟩⟩ rfl]],
      .empty ⟨"receiver", [], true, ⟨⟨109, 1, 110⟩, 120⟩⟩ rfl]

/-- The text of that manifest, and a text whose mistake comes after a component. -/
theorem components_exact_sample :
    ((∃ o, Project.addSource ({}, []) (⟨"AndroidManifest.xml"⟩,
        "<manifest package=\"p\"><activity/><application><activity android:name=\".A\">" ++
          "<service/></activity></application><receiver/></manifest>") =
          (({} : Project).merge o, []) ∧
        o.file.package = some "p" ∧
          List.Forall₂ (Lists ⟨"AndroidManifest.xml"⟩ (some "p"))
            [⟨"activity", [("android:name", ".A")], false, ⟨⟨46, 1, 47⟩, 74⟩⟩,
              ⟨"service", [], true, ⟨⟨74, 1, 75⟩, 84⟩⟩] o.components)) ∧
      Project.addSource ({}, []) (⟨"AndroidManifest.xml"⟩,
        "<manifest><application><service/></manifest>") =
          ({}, [(⟨"AndroidManifest.xml"⟩, .markup .misplacedEnd)]) := by
  have hpath : FileKind.ofPath? ⟨"AndroidManifest.xml"⟩ = some .manifest := by decide +kernel
  have hroot : sampleRoot.IsManifest :=
    ⟨rfl, by decide, by unfold Element.ApplicationsApart; decide⟩
  refine ⟨(components_exact _ _ hpath {} []).2.1 sampleRoot (by decide +kernel) hroot, ?_⟩
  exact (components_exact _ _ hpath {} []).2.2 _ (pieces_eq_error_iff.mp (by decide +kernel))

end AdLint.Manifest
