import AdLint.Proofs.Nesting
import AdLint.Proofs.Record
import Mathlib.Data.Prod.Lex

/-!
# Where declarations are shown

A finding about a type is shown at an annotation of the type or at an argument of one, and a finding
about a field at the field. Annotations stand in the head of a type, so they lie apart from all that
is declared in its body. Several fields of a Java declaration share its range, and are told apart by
the line and the column of their names. These identify a place, since both only ever move on.

## Main definitions

* `Place.shown`: the line and column of a place, in the order of the text
* `Declaration.Marks`: a declaration is shown at a location besides its own range
* `Marked language starts path lo hi ds`: the declarations `ds` mark locations between two bytes,
  apart from one another

## Main results

* `Lexicon.eq_of_shown_eq`: tokens that are shown at one line and column start at one place
* `Marked.flatMap`, `Marked.select`: what the nodes of a placed forest declare is marked apart, if
  what each of them declares is
* `Marked.pairwise_toldApart`: declarations that are marked apart are told apart
-/

namespace AdLint

open AdLint.Tree (PlacedIn)

/-! ## Lines and columns -/

namespace Place

/-- The line and the column of a place. Places on one line compare by their columns. -/
def shown (p : Place) : Nat ×ₗ Nat := toLex (p.line, p.column)

theorem shown_lt_advance (p : Place) (c : Char) : p.shown < (p.advance c).shown := by
  rw [shown, shown, Prod.Lex.toLex_lt_toLex, advance]
  split
  · exact .inl (Nat.lt_succ_self p.line)
  · exact .inr ⟨rfl, Nat.lt_add_of_pos_right c.utf8Size_pos⟩

theorem shown_le_advanceAll (p : Place) (cs : List Char) : p.shown ≤ (p.advanceAll cs).shown := by
  induction cs generalizing p with
  | nil => exact le_rfl
  | cons c cs ih => exact (p.shown_lt_advance c).le.trans (ih (p.advance c))

theorem shown_lt_advanceAll (p : Place) {cs : List Char} (hcs : cs ≠ []) :
    p.shown < (p.advanceAll cs).shown := by
  obtain ⟨c, cs, rfl⟩ := List.exists_cons_of_ne_nil hcs
  exact (p.shown_lt_advance c).trans_le ((p.advance c).shown_le_advanceAll cs)

/-- Places come one after the other. -/
def Ascending (ps : List Place) : Prop := ps.Pairwise fun p q => p.shown < q.shown

variable {ps : List Place} {p q : Place}

theorem Ascending.shown_le (h : Ascending (ps ++ [p])) (hq : q ∈ ps ++ [p]) :
    q.shown ≤ p.shown := by
  rcases List.mem_append.mp hq with hq | hq
  · exact ((List.pairwise_append.mp h).2.2 q hq p List.mem_cons_self).le
  · rw [List.mem_singleton.mp hq]

theorem Ascending.concat (h : Ascending (ps ++ [p])) (hpq : p.shown < q.shown) :
    Ascending (ps ++ [p] ++ [q]) := by
  refine List.pairwise_append.mpr ⟨h, List.pairwise_singleton _ _, fun r hr q' hq' => ?_⟩
  rw [List.mem_singleton.mp hq']
  exact (h.shown_le hr).trans_lt hpq

end Place

/-- Where the comments before a token and the token itself start. -/
def Token.starts (t : Token) : List Place := t.comments.map Span.start ++ [t.span.start]

namespace Lexicon

open Place (Ascending)

variable {σ : Type} {l : Lexicon σ}

/-- The tokens of a scan start one after the other, behind the comments of the gap before them. -/
theorem ascending_scan (hl : ∀ state c cs, (l.next state c cs).1.Takes) (n : Nat) (state : σ)
    {place : Place} {gap : Gap} (cs : List Char)
    (hgap : Ascending (gap.comments.map Span.start ++ [place])) :
    Ascending ((l.scan n state place gap cs).flatMap Token.starts) ∧
      ∀ q ∈ (l.scan n state place gap cs).flatMap Token.starts,
        q ∈ gap.comments.map Span.start ∨ place.shown ≤ q.shown := by
  induction n generalizing state place gap cs with
  | zero => exact ⟨.nil, by simp [scan]⟩
  | succ n ih =>
    cases cs with
    | nil => exact ⟨.nil, by simp [scan]⟩
    | cons c cs =>
      have htakes := hl state c cs
      have hplace : ∀ q ∈ gap.comments.map Span.start ++ [place],
          q ∈ gap.comments.map Span.start ∨ place.shown ≤ q.shown := fun q hq =>
        (List.mem_append.mp hq).imp_right fun hq =>
          (congrArg Place.shown (List.mem_singleton.mp hq)).ge
      rw [scan]
      -- a blank moves the place, a comment goes into the gap, and a token ends the gap
      split
      · have hmove := place.shown_lt_advance c
        have hblank : Ascending ((gap.blank c).comments.map Span.start ++ [place.advance c]) :=
          (hgap.concat hmove).sublist ((List.sublist_append_left _ _).append_right _)
        obtain ⟨hscan, hfrom⟩ := ih _ cs hblank
        exact ⟨hscan, fun q hq => (hfrom q hq).imp_right hmove.le.trans⟩
      · next taken _ hnext =>
        rw [hnext] at htakes
        have hmove := place.shown_lt_advanceAll htakes
        have hstarts :
            (gap.comment ⟨place, (place.advanceAll taken).byte⟩).comments.map Span.start =
            gap.comments.map Span.start ++ [place] := by
          simp [Gap.comment]
        obtain ⟨hscan, hfrom⟩ := ih _ ((c :: cs).drop taken.length) (hstarts ▸ hgap.concat hmove)
        refine ⟨hscan, fun q hq => ?_⟩
        rcases hfrom q hq with hq | hq
        · exact hplace q (hstarts ▸ hq)
        · exact .inr (hmove.le.trans hq)
      · next kind taken after hnext =>
        rw [hnext] at htakes
        have hmove := place.shown_lt_advanceAll htakes
        have hnone : Ascending (({} : Gap).comments.map Span.start ++ [place.advanceAll taken]) :=
          List.pairwise_singleton _ _
        obtain ⟨hscan, hfrom⟩ := ih after ((c :: cs).drop taken.length) hnone
        have hbehind : ∀ q ∈ (l.scan n after (place.advanceAll taken) {}
            ((c :: cs).drop taken.length)).flatMap Token.starts, place.shown < q.shown :=
          fun q hq => hmove.trans_le ((hfrom q hq).resolve_left (by simp))
        rw [List.flatMap_cons]
        refine ⟨List.pairwise_append.mpr ⟨hgap, hscan, fun p hp q hq =>
          (hgap.shown_le hp).trans_lt (hbehind q hq)⟩, fun q hq => ?_⟩
        rcases List.mem_append.mp hq with hq | hq
        · exact hplace q hq
        · exact .inr (hbehind q hq).le

/-- Where tokens and comments of a text start. -/
def starts (l : Lexicon σ) (text : String) : List Place := (l.tokens text).flatMap Token.starts

/-- **Tokens that are shown at one line and column start at one place.** -/
theorem eq_of_shown_eq (hl : ∀ state c cs, (l.next state c cs).1.Takes) {text : String}
    {p q : Place}
    (hp : p ∈ l.starts text) (hq : q ∈ l.starts text) (h : p.shown = q.shown) : p = q := by
  have hstart : Ascending (({} : Gap).comments.map Span.start ++ [Place.start]) :=
    List.pairwise_singleton _ _
  have hpairs : (l.starts text).Pairwise fun p q => p.shown ≠ q.shown :=
    (ascending_scan hl _ _ _ hstart).1.imp ne_of_lt
  have hsymm : Std.Symm fun p q : Place => p.shown ≠ q.shown := ⟨fun _ _ => Ne.symm⟩
  by_contra hne
  exact hpairs.forall hp hq hne h

end Lexicon

/-! ## Marked locations -/

/-- A location that is not empty lies between two bytes of a file. -/
structure Location.Within (path : Path) (lo hi : Nat) (m : Location) : Prop where
  file_eq : m.file = path
  start_le : lo ≤ m.start
  nonempty : m.start < m.stop
  stop_le : m.stop ≤ hi

namespace Location

variable {path : Path} {lo hi : Nat} {m n : Location}

theorem Within.mono {lo' hi' : Nat} (h : m.Within path lo hi) (hlo : lo' ≤ lo) (hhi : hi ≤ hi') :
    m.Within path lo' hi' :=
  ⟨h.file_eq, hlo.trans h.start_le, h.nonempty, h.stop_le.trans hhi⟩

/-- One of two locations ends before the other starts. -/
def Apart (m n : Location) : Prop := m.stop ≤ n.start ∨ n.stop ≤ m.start

theorem Within.apart {s t : Span} (hm : m.Within path s.start.byte s.stop)
    (hn : n.Within path t.start.byte t.stop) (h : s.Apart t) : m.Apart n :=
  h.imp (fun h => hm.stop_le.trans (h.trans hn.start_le)) fun h =>
    hn.stop_le.trans (h.trans hm.start_le)

theorem same_iff : m.same n = true ↔ m.file.components = n.file.components ∧ m.line = n.line ∧
    m.column = n.column ∧ m.start = n.start ∧ m.stop = n.stop := by
  simp only [same, Bool.and_eq_true, Path.same_iff, beq_iff_eq, and_assoc]

end Location

namespace Declaration

theorem kind_ne_field {d : Declaration} (h : d.isType = true) : d.kind ≠ .field := by
  intro hkind
  rw [isType, hkind] at h
  cases h

/-- A location is that of an annotation of a type, or of an argument of one. -/
inductive AnnotatedAt (d : Declaration) : Location → Prop
  | annot {a : Annot} (htype : d.isType = true) (ha : a ∈ d.annotations) :
    d.AnnotatedAt a.location
  | argument {a : Annot} {argument : Argument} (htype : d.isType = true) (ha : a ∈ d.annotations)
    (hargument : argument ∈ a.arguments) : d.AnnotatedAt argument.location

theorem AnnotatedAt.isType {d : Declaration} {m : Location} (h : d.AnnotatedAt m) :
    d.isType = true := by
  cases h <;> assumption

/-- A declaration is shown at a location besides its own range: a type where it is annotated, and a
field at the first byte of its name, if that is among the places given. -/
inductive Marks (starts : List Place) (d : Declaration) : Location → Prop
  | head {m : Location} (h : d.AnnotatedAt m) : d.Marks starts m
  | name {place : Place} (hkind : d.kind = .field) (hplace : place ∈ starts)
    (hline : place.line = d.location.line) (hcolumn : place.column = d.location.column) :
    d.Marks starts ⟨d.location.file, place.line, place.column, place.byte, place.byte + 1⟩

/-- The location of a declaration has the range of its identifier. A Java field has that of the
declaration which it shares with other fields, but is shown at its own name. -/
structure Located (language : Language) (starts : List Place) (d : Declaration) : Prop where
  range : d.kind ≠ .field ∨ language ≠ .java →
    d.location.start = d.id.start ∧ d.location.stop = d.id.stop
  name : d.kind = .field → language = .java →
    ∃ place ∈ starts, place.line = d.location.line ∧ place.column = d.location.column

end Declaration

/-- Two fields have different locations, and so have two types, also where they are annotated. -/
structure Declaration.ToldApart (d e : Declaration) : Prop where
  fields : d.kind = .field → e.kind = .field → d.location.same e.location = false
  types : d.isType = true → e.isType = true → d.location.same e.location = false
  annotated : ∀ m n, d.AnnotatedAt m → e.AnnotatedAt n → m.same n = false

/-- The declarations `ds` mark locations between two bytes, apart from one another. -/
structure Marked (language : Language) (starts : List Place) (path : Path) (lo hi : Nat)
    (ds : List Declaration) : Prop where
  located : ∀ d ∈ ds, d.Located language starts
  within : ∀ d ∈ ds, ∀ m, d.Marks starts m → m.Within path lo hi
  apart : ds.Pairwise fun d e => ∀ m n, d.Marks starts m → e.Marks starts n → m.Apart n

namespace Marked

variable {language : Language} {starts : List Place} {path : Path} {lo hi : Nat}
  {ds as bs : List Declaration} {d : Declaration}

theorem nil : Marked language starts path lo hi [] := ⟨by simp, by simp, .nil⟩

theorem mono {lo' hi' : Nat} (h : Marked language starts path lo hi ds) (hlo : lo' ≤ lo)
    (hhi : hi ≤ hi') : Marked language starts path lo' hi' ds :=
  ⟨h.located, fun d hd m hm => (h.within d hd m hm).mono hlo hhi, h.apart⟩

theorem append (ha : Marked language starts path lo hi as)
    (hb : Marked language starts path lo hi bs)
    (hapart : ∀ a ∈ as, ∀ b ∈ bs, ∀ m n, a.Marks starts m → b.Marks starts n → m.Apart n) :
    Marked language starts path lo hi (as ++ bs) where
  located := List.forall_mem_append.mpr ⟨ha.located, hb.located⟩
  within := List.forall_mem_append.mpr ⟨ha.within, hb.within⟩
  apart := List.pairwise_append.mpr ⟨ha.apart, hb.apart, hapart⟩

/-- What stands before some byte and what stands behind it. -/
theorem append_of_le {mid : Nat} (ha : Marked language starts path lo mid as)
    (hb : Marked language starts path mid hi bs) (hlo : lo ≤ mid) (hhi : mid ≤ hi) :
    Marked language starts path lo hi (as ++ bs) :=
  (ha.mono le_rfl hhi).append (hb.mono hlo le_rfl) fun a hamem b hbmem m n hm hn =>
    .inl ((ha.within a hamem m hm).stop_le.trans (hb.within b hbmem n hn).start_le)

/-- Declarations that mark nothing. -/
theorem of_unmarked (hds : ∀ d ∈ ds, d.Located language starts)
    (hnone : ∀ d ∈ ds, ∀ m, ¬d.Marks starts m) :
    Marked language starts path lo hi ds where
  located := hds
  within d hd m hm := absurd hm (hnone d hd m)
  apart := List.pairwise_of_forall_mem_list fun d hd _ _ m _ hm => absurd hm (hnone d hd m)

section Parts

variable {κ : Type} {forest : List (Tree κ)} {f : Tree κ → List Declaration} {p : Tree κ → Bool}
  {t : Tree κ}

/-- What the nodes of a forest declare, each on its own range. -/
theorem flatMap (hforest : PlacedIn lo hi forest)
    (hf : ∀ t ∈ forest, Marked language starts path t.span.start.byte t.span.stop (f t)) :
    Marked language starts path lo hi (forest.flatMap f) := by
  induction forest generalizing lo with
  | nil => exact nil
  | cons t forest ih =>
    obtain ⟨hlo, hne, hrest⟩ := hforest.inOrder
    have ht := hf t List.mem_cons_self
    have hforest' := ih hforest.tail fun u hu => hf u (List.mem_cons_of_mem t hu)
    rw [List.flatMap_cons]
    exact (ht.mono hlo le_rfl).append_of_le hforest' (hlo.trans hne.le) hrest.le

/-- What some of the nodes of a forest declare. -/
theorem select (hforest : PlacedIn lo hi forest)
    (hf : ∀ t ∈ forest, p t = true →
      Marked language starts path t.span.start.byte t.span.stop (f t)) :
    Marked language starts path lo hi (forest.flatMap fun t => if p t then f t else []) := by
  refine flatMap hforest fun t ht => ?_
  split
  · next hp => exact hf t ht hp
  · exact nil

/-- A declaration that marks parts of a node, and then those in other parts of the node. -/
theorem cons_select (hd : d.Located language starts) (ht : t.Placed)
    (hmarks : ∀ m, d.Marks starts m →
      ∃ v ∈ t.parts, p v = false ∧ m.Within path v.span.start.byte v.span.stop)
    (hf : ∀ u ∈ t.parts, p u = true →
      Marked language starts path u.span.start.byte u.span.stop (f u)) :
    Marked language starts path t.span.start.byte t.span.stop
      (d :: t.parts.flatMap fun u => if p u then f u else []) := by
  have hrest : Marked language starts path t.span.start.byte t.span.stop
      (t.parts.flatMap fun u => if p u then f u else []) := select ht.placedIn_parts hf
  refine ⟨List.forall_mem_cons.mpr ⟨hd, hrest.located⟩,
    List.forall_mem_cons.mpr ⟨fun m hm => ?_, hrest.within⟩, .cons ?_ hrest.apart⟩
  · obtain ⟨v, hv, -, hwithin⟩ := hmarks m hm
    obtain ⟨hlo, -, hhi⟩ := ht.placedIn_parts.mem hv
    exact hwithin.mono hlo hhi
  · -- what is declared in a part that is selected is apart from one that is not
    intro e he m n hm hn
    obtain ⟨v, hv, hpv, hwithin⟩ := hmarks m hm
    obtain ⟨u, hu, he⟩ := List.mem_flatMap.mp he
    split at he
    · next hpu =>
      have hne : v ≠ u := by
        rintro rfl
        rw [hpu] at hpv
        cases hpv
      exact hwithin.apart ((hf u hu hpu).within e he n hn) (ht.placedIn_parts.apart hv hu hne)
    · cases he

end Parts

/-- A declaration that marks nothing, before others. -/
theorem cons_of_unmarked (hd : d.Located language starts) (hnone : ∀ m, ¬d.Marks starts m)
    (h : Marked language starts path lo hi ds) : Marked language starts path lo hi (d :: ds) where
  located := List.forall_mem_cons.mpr ⟨hd, h.located⟩
  within := List.forall_mem_cons.mpr ⟨fun m hm => absurd hm (hnone m), h.within⟩
  apart := .cons (fun _ _ m _ hm => absurd hm (hnone m)) h.apart

/-- Declarations that mark nothing, between others. -/
theorem insert_unmarked (h : Marked language starts path lo hi (as ++ bs))
    (hds : ∀ d ∈ ds, d.Located language starts) (hnone : ∀ d ∈ ds, ∀ m, ¬d.Marks starts m) :
    Marked language starts path lo hi (as ++ (ds ++ bs)) := by
  obtain ⟨ha, hb, hab⟩ := List.pairwise_append.mp h.apart
  obtain ⟨hla, hlb⟩ := List.forall_mem_append.mp h.located
  obtain ⟨hwa, hwb⟩ := List.forall_mem_append.mp h.within
  have hrest : Marked language starts path lo hi (ds ++ bs) :=
    .append (of_unmarked hds hnone) ⟨hlb, hwb, hb⟩ fun d hd _ _ m _ hm => absurd hm (hnone d hd m)
  refine .append ⟨hla, hwa, ha⟩ hrest fun a hamem x hx m n hm hn => ?_
  rcases List.mem_append.mp hx with hx | hx
  · exact absurd hn (hnone x hx n)
  · exact hab a hamem x hx m n hm hn

/-- Fields are told apart by their locations, and so are types and where they are annotated. -/
theorem pairwise_toldApart {outer : Option DeclarationId} {lo' hi' : Nat}
    (h : Marked language starts path lo hi ds) (hnested : Nested path outer lo' hi' ds)
    (hshown : ∀ p ∈ starts, ∀ q ∈ starts, p.shown = q.shown → p = q) :
    ds.Pairwise Declaration.ToldApart := by
  refine (hnested.distinct.and h.apart).imp_of_mem fun {d e} hd he ⟨hid, hapart⟩ => ?_
  -- where a location has the range of an identifier, it is as distinct as the identifier
  have hranges : (d.kind ≠ .field ∨ language ≠ .java) → (e.kind ≠ .field ∨ language ≠ .java) →
      d.location.same e.location = false := by
    refine fun hdrange herange => Bool.eq_false_iff.mpr fun hsame => hid ?_
    obtain ⟨-, -, -, hstart, hstop⟩ := Location.same_iff.mp hsame
    obtain ⟨hdstart, hdstop⟩ := (h.located d hd).range hdrange
    obtain ⟨hestart, hestop⟩ := (h.located e he).range herange
    rw [hdstart, hestart] at hstart
    rw [hdstop, hestop] at hstop
    have hfile : d.id.file = e.id.file := (hnested.within d hd).1.trans (hnested.within e he).1.symm
    change (⟨d.id.file, d.id.start, d.id.stop⟩ : DeclarationId) = ⟨e.id.file, e.id.start, e.id.stop⟩
    rw [hfile, hstart, hstop]
  refine ⟨fun hdfield hefield => ?_, fun hdtype hetype => ?_, fun m n hm hn => ?_⟩
  · by_cases hjava : language = .java
    · refine Bool.eq_false_iff.mpr fun hsame => ?_
      obtain ⟨-, hline, hcolumn, -⟩ := Location.same_iff.mp hsame
      obtain ⟨p, hp, hpline, hpcolumn⟩ := (h.located d hd).name hdfield hjava
      obtain ⟨q, hq, hqline, hqcolumn⟩ := (h.located e he).name hefield hjava
      -- shown at one line and column, the names start at one byte
      obtain rfl := hshown p hp q hq (by
        rw [Place.shown, Place.shown, hpline, hpcolumn, hqline, hqcolumn, hline, hcolumn])
      rcases hapart _ _ (.name hdfield hp hpline hpcolumn) (.name hefield hp hqline hqcolumn) with
        hle | hle <;> exact absurd hle (Nat.not_succ_le_self p.byte)
    · exact hranges (.inr hjava) (.inr hjava)
  · exact hranges (.inl (Declaration.kind_ne_field hdtype))
      (.inl (Declaration.kind_ne_field hetype))
  · refine Bool.eq_false_iff.mpr fun hsame => ?_
    obtain ⟨-, -, -, hstart, hstop⟩ := Location.same_iff.mp hsame
    have hnonempty := (h.within d hd m (.head hm)).nonempty
    rcases hapart m n (.head hm) (.head hn) with hle | hle <;> omega

end Marked

/-! ## Annotations -/

section Annotations

variable {κ α : Type} {s : Source} {t u : Tree κ}

theorem Tree.mem_of_mem_foldParts {f : κ → Span → List (Tree κ × α) → α} {parts : List (Tree κ)}
    {part : Tree κ × α} (h : part ∈ Tree.foldParts f parts) : part.1 ∈ parts := by
  induction parts with
  | nil => cases h
  | cons t parts ih =>
    rcases List.mem_cons.mp h with rfl | h
    · exact List.mem_cons_self
    · exact List.mem_cons_of_mem t (ih h)

/-- The location of a part of a node lies in the node. -/
theorem Location.within_locate (ht : t.Placed) (hu : u ∈ t.parts) :
    (s.locate u.span u.span).Within s.path t.span.start.byte t.span.stop := by
  obtain ⟨hlo, hne, hhi⟩ := ht.placedIn_parts.mem hu
  exact ⟨rfl, hlo, hne, hhi⟩

/-- What lies in a part of a node lies in the node. -/
theorem Location.Within.of_part {path : Path} {m : Location}
    (h : m.Within path u.span.start.byte u.span.stop) (ht : t.Placed) (hu : u ∈ t.parts) :
    m.Within path t.span.start.byte t.span.stop := by
  obtain ⟨hlo, -, hhi⟩ := ht.placedIn_parts.mem hu
  exact h.mono hlo hhi

theorem exists_of_mem_zipWith {α β γ : Type} {f : α → β → γ} {as : List α} {bs : List β} {c : γ}
    (h : c ∈ List.zipWith f as bs) : ∃ a ∈ as, ∃ b ∈ bs, c = f a b := by
  rw [← List.map_uncurry_zip_eq_zipWith] at h
  obtain ⟨⟨a, b⟩, hab, rfl⟩ := List.mem_map.mp h
  exact ⟨a, (List.of_mem_zip hab).1, b, (List.of_mem_zip hab).2, rfl⟩

/-- An annotation and its arguments are located in a node. -/
def Annot.Within (path : Path) (t : Tree κ) (a : Annot) : Prop :=
  a.location.Within path t.span.start.byte t.span.stop ∧
    ∀ argument ∈ a.arguments, argument.location.Within path t.span.start.byte t.span.stop

theorem Declaration.AnnotatedAt.within {path : Path} {parts : List (Tree κ)} {P : Tree κ → Prop}
    {d : Declaration} {m : Location} (hm : d.AnnotatedAt m)
    (h : ∀ a ∈ d.annotations, ∃ v ∈ parts, P v ∧ a.Within path v) :
    ∃ v ∈ parts, P v ∧ m.Within path v.span.start.byte v.span.stop := by
  cases hm with
  | annot _ ha =>
    obtain ⟨v, hv, hP, hwithin⟩ := h _ ha
    exact ⟨v, hv, hP, hwithin.1⟩
  | argument _ ha hargument =>
    obtain ⟨v, hv, hP, hwithin⟩ := h _ ha
    exact ⟨v, hv, hP, hwithin.2 _ hargument⟩

end Annotations

end AdLint
