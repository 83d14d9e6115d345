import AdLint.Proofs.ManifestElements
import AdLint.Proofs.Places
import AdLint.Proofs.QualifiedNames

/-!
# Where the tags of a manifest are

After a tag the reader tells how many bytes it has read. The start of the tag is found by a look
back from there to the last opening bracket, and its line and column are counted from the start of
the text. The look back ends inside the tag: at its own bracket, or at another one that stands in
the value of an attribute. So the location of a component covers its tag or an end of it, whatever
characters stand before, and the components start one after the other.

The bytes of a byte order mark are not counted by the reader. What is said of locations here is
about texts that do not begin with one.

## Main definitions

* `TagAt`: an opening tag where the reader of a text finds it
* `Covers`: a location that covers some characters of a text

## Main results

* `taken_prefix`, `Standing.exists_taken_of_reads`: the reader stands behind what it took from the
  text
* `Standing.inOrder_spans`: the tags that the reader finds follow one another
* `TagAt.covers`: the location of a component covers its tag from the last opening bracket on
* `component_locations_exact`: where the components of a manifest are
-/

namespace AdLint.Manifest

/-! ## What the reader takes -/

section Taken

variable {lag : Nat} {place : Place} {c : Char} {cs content taken ending : List Char}
    {piece : Piece}

/-- One more character in front of what is found is one in front of the text. -/
theorem prefix_of_map_cons {found : Option (List Char)}
    (ih : ∀ content, found = some content → content ++ ending <+: cs)
    (h : found.map (c :: ·) = some content) : content ++ ending <+: c :: cs := by
  obtain ⟨rest, hrest, rfl⟩ := Option.map_eq_some_iff.mp h
  exact List.cons_prefix_cons.mpr ⟨rfl, ih rest hrest⟩

theorem prefix_of_cutAt? {after : List Char} (h : cutAt? c cs = some (content, after)) :
    content ++ [c] <+: cs := by
  induction cs generalizing content with
  | nil => cases h
  | cons x xs ih =>
    rw [cutAt?] at h
    split at h
    · next heq =>
      cases h
      rw [beq_iff_eq.mp heq]
      exact ⟨_, rfl⟩
    · obtain ⟨⟨a, b⟩, hcut, hpair⟩ := Option.map_eq_some_iff.mp h
      cases hpair
      exact List.cons_prefix_cons.mpr ⟨rfl, ih hcut⟩

theorem prefix_of_before? (h : before? ending cs = some content) : content ++ ending <+: cs := by
  induction cs generalizing content with
  | nil => cases h
  | cons c cs ih =>
    rw [before?] at h
    split at h
    · next hend =>
      cases h
      obtain ⟨after, hafter⟩ := Option.isSome_iff_exists.mp hend
      exact ⟨after, (afterStart?_eq_some_iff.mp hafter).symm⟩
    · exact prefix_of_map_cons (fun _ => ih) h

theorem prefix_of_tagContent? {quote : Option Char} (h : tagContent? quote cs = some content) :
    content ++ ['>'] <+: cs := by
  induction cs generalizing quote content with
  | nil => cases quote <;> cases h
  | cons c cs ih =>
    cases quote with
    | none =>
      rw [tagContent?] at h
      split at h
      · next heq =>
        cases h
        rw [beq_iff_eq.mp heq]
        exact ⟨cs, rfl⟩
      · exact prefix_of_map_cons (fun _ => ih) h
    | some q => exact prefix_of_map_cons (fun _ => ih) h

theorem prefix_of_doctypeContent? {depth : Nat} (h : doctypeContent? depth cs = some content) :
    content ++ ['>'] <+: cs := by
  induction cs generalizing depth content with
  | nil => cases h
  | cons c cs ih =>
    rw [doctypeContent?] at h
    split at h
    · exact prefix_of_map_cons (fun _ => ih) h
    · split at h
      · next heq =>
        split at h
        · cases h
          rw [beq_iff_eq.mp heq]
          exact ⟨cs, rfl⟩
        · exact prefix_of_map_cons (fun _ => ih) h
      · exact prefix_of_map_cons (fun _ => ih) h

theorem prefix_of_declaration (h : declaration cs = .ok taken) : taken <+: cs := by
  unfold declaration at h
  split at h
  · split at h
    · next hcontent =>
      cases h
      have := prefix_of_before? hcontent
      rw [List.append_assoc]
      exact (List.prefix_append_right_inj _).mpr this
    · cases h
  · split at h
    · next hstart =>
      split at h
      · next hcontent =>
        cases h
        rw [afterStart?_eq_some_iff.mp hstart, List.append_assoc]
        exact (List.prefix_append_right_inj _).mpr (prefix_of_before? hcontent)
      · cases h
    · cases h
  · split at h
    · split at h
      · next hcontent =>
        split at h
        · cases h
        · cases h
          exact prefix_of_doctypeContent? hcontent
      · cases h
    · cases h

/-- A start of a text goes on with the character behind it. -/
theorem prefix_of_head?_drop (hcontent : content <+: cs)
    (hnext : (cs.drop content.length).head? = some c) :
    content ++ [c] <+: cs := by
  obtain ⟨rest, rfl⟩ := hcontent
  rw [List.drop_left] at hnext
  obtain ⟨after, rfl⟩ := List.head?_eq_some_iff.mp hnext
  exact ⟨after, List.append_assoc content [c] after⟩

/-- **The reader takes what stands in front of it.** -/
theorem taken_prefix (h : next lag place cs = .ok (piece, taken)) : taken <+: cs := by
  unfold next at h
  -- one case for each way in which a piece begins
  split at h
  · next cs =>
    cases hdeclaration : declaration cs with
    | error e =>
      rw [hdeclaration] at h
      cases h
    | ok taken =>
      rw [hdeclaration] at h
      cases h
      exact List.cons_prefix_cons.mpr ⟨rfl,
        List.cons_prefix_cons.mpr ⟨rfl, prefix_of_declaration hdeclaration⟩⟩
  · cases h
  · split at h
    · next hcontent =>
      cases h
      rw [List.append_assoc]
      exact (List.prefix_append_right_inj ['<', '?']).mpr (prefix_of_before? hcontent)
    · cases h
  · split at h
    · next hcontent =>
      cases h
      rw [List.append_assoc]
      exact (List.prefix_append_right_inj ['<', '/']).mpr (prefix_of_cutAt? hcontent)
    · cases h
  · split at h
    · next hcontent =>
      cases h
      exact List.cons_prefix_cons.mpr ⟨rfl, prefix_of_tagContent? hcontent⟩
    · cases h
  · dsimp only at h
    split at h
    · next cs hend =>
      cases h
      have hname := prefix_of_head?_drop (List.takeWhile_prefix _) (beq_iff_eq.mp hend)
      exact List.cons_prefix_cons.mpr ⟨rfl, hname⟩
    · cases h
  · cases h
    exact List.takeWhile_prefix _

end Taken

/-! ## Where the reader stands -/

namespace Standing

variable {lag n : Nat} {st st' : Standing} {ps : List Piece} {tag : Tag}

/-- The reader stands behind the characters that it took. -/
theorem exists_taken_of_reads (h : Reads lag st ps st') :
    ∃ taken, st.rest = taken ++ st'.rest ∧ st'.place = st.place.advanceAll taken := by
  -- whatever a step finds, the rest of the way goes on behind the characters of the step
  have hstep : ∀ {st st' : Standing} {piece : Piece} {taken : List Char},
      next lag st.place st.rest = .ok (piece, taken) →
        (∃ more, st.rest.drop taken.length = more ++ st'.rest ∧
          st'.place = (st.place.advanceAll taken).advanceAll more) →
        ∃ all, st.rest = all ++ st'.rest ∧ st'.place = st.place.advanceAll all := by
    rintro st st' piece taken hnext ⟨more, hrest, hplace⟩
    obtain ⟨rest, htaken⟩ := taken_prefix hnext
    rw [← htaken, List.drop_left] at hrest
    refine ⟨taken ++ more, ?_, ?_⟩
    · rw [← htaken, hrest, List.append_assoc]
    · rw [hplace, Place.advanceAll_append]
  induction h with
  | here st => exact ⟨[], rfl, rfl⟩
  | other _ hnext _ ih => exact hstep hnext ih
  | opening _ hnext _ ih => exact hstep hnext ih
  | closing _ hnext _ _ ih => exact hstep hnext ih

/-- What is found up to the end of a text is found on the way there. -/
theorem exists_reads_of_ok (h : st.tags lag n = .ok ps) (hn : st.rest.length ≤ n) :
    ∃ st', Reads lag st ps st' ∧ st'.rest = [] := by
  induction n generalizing st ps with
  | zero =>
    cases h
    exact ⟨st, .here st, List.length_eq_zero_iff.mp (Nat.le_zero.mp hn)⟩
  | succ n ih =>
    by_cases hrest : st.rest = []
    · rw [tags, hrest, piecesAux] at h
      cases h
      exact ⟨st, .here st, hrest⟩
    rcases fails_or_goes_on lag hrest with ⟨e, hfails⟩ | ⟨found, on, hshort, htags, hreads⟩
    · rw [tags_of_fails hfails] at h
      cases h
    · rw [htags] at h
      obtain ⟨ps, hps, rfl⟩ := map_eq_ok_iff.mp h
      obtain ⟨st', hon, hend⟩ := ih hps (by omega)
      exact ⟨st', hreads ps st' hon, hend⟩

/-- Before an opening tag is found, the reader gets to it. -/
theorem exists_reads_of_append {more : List Piece}
    (h : Reads lag st (ps ++ .opening tag :: more) st') :
    ∃ here taken, Reads lag st ps here ∧ here.rest ≠ [] ∧
      next lag here.place here.rest = .ok (.opening tag, taken) := by
  generalize hall : ps ++ .opening tag :: more = all at h
  induction h generalizing ps with
  | here st => simp at hall
  | other hrest hnext _ ih =>
    obtain ⟨here, taken, hreads, hfound⟩ := ih hall
    exact ⟨here, taken, .other hrest hnext hreads, hfound⟩
  | @opening st st' taken first rest hrest hnext h ih =>
    cases ps with
    | nil =>
      obtain ⟨hfirst, -⟩ := List.cons.inj hall
      cases hfirst
      exact ⟨st, taken, .here st, hrest, hnext⟩
    | cons piece ps =>
      obtain ⟨rfl, hrestAll⟩ := List.cons.inj hall
      obtain ⟨here, taken, hreads, hfound⟩ := ih hrestAll
      exact ⟨here, taken, .opening hrest hnext hreads, hfound⟩
  | closing hrest hnext hopened h ih =>
    cases ps with
    | nil => cases (List.cons.inj hall).1
    | cons piece ps =>
      obtain ⟨rfl, hrestAll⟩ := List.cons.inj hall
      obtain ⟨here, taken, hreads, hfound⟩ := ih hrestAll
      exact ⟨here, taken, .closing hrest hnext hopened hreads, hfound⟩

/-- What the reader finds from an opening tag on. -/
theorem exists_tags_of_reads {taken : List Char} {all : List Piece} (h : Reads lag st ps st')
    (hrest : st'.rest ≠ []) (hnext : next lag st'.place st'.rest = .ok (.opening tag, taken))
    (hn : st.rest.length ≤ n) (hall : st.tags lag n = .ok all) :
    ∃ more, all = ps ++ .opening tag :: more := by
  obtain ⟨m, hm, htags⟩ := tags_of_reads h hn
  obtain ⟨m, rfl⟩ : ∃ k, m = k + 1 := ⟨m - 1, by have := List.length_pos_iff.mpr hrest; omega⟩
  rw [hall, tags_of_opening hrest hnext] at htags
  obtain ⟨found, hfound, rfl⟩ := map_eq_ok_iff.mp htags.symm
  obtain ⟨more, -, rfl⟩ := map_eq_ok_iff.mp hfound
  exact ⟨more, rfl⟩

end Standing

/-! ## The span of a tag -/

theorem firstBytes?_utf8Len (cs : List Char) : firstBytes? (String.utf8Len cs) cs = some cs := by
  induction cs with
  | nil => rfl
  | cons c cs ih =>
    have hpos := c.utf8Size_pos
    obtain ⟨n, hn⟩ : ∃ n, String.utf8Len (c :: cs) = n + 1 := ⟨String.utf8Len (c :: cs) - 1, by
      rw [String.utf8Len_cons]
      omega⟩
    have hrest : n + 1 - c.utf8Size = String.utf8Len cs := by
      rw [← hn, String.utf8Len_cons, Nat.add_sub_cancel]
    rw [hn, firstBytes?, if_pos (by rw [← hn, String.utf8Len_cons]; omega), hrest, ih]
    rfl

/-- A list with a separator is cut at the last one. -/
theorem cutAtLast?_of_mem {sep : Char} {xs : List Char} (h : sep ∈ xs) :
    ∃ a b, xs = a ++ sep :: b ∧ sep ∉ b ∧ Text.cutAtLast? sep xs = some (a, b) := by
  obtain ⟨b, a, hreverse, hb⟩ := List.eq_append_cons_of_mem (List.mem_reverse.mpr h)
  have hb : sep ∉ b.reverse := by rwa [List.mem_reverse]
  have hxs : xs = a.reverse ++ sep :: b.reverse := by
    rw [← List.reverse_reverse xs, hreverse]
    simp
  refine ⟨a.reverse, b.reverse, hxs, hb, ?_⟩
  have hafter : Text.afterLast sep xs = b.reverse := by
    rw [hxs, Text.afterLast_append_cons, Text.afterLast_eq_self hb]
  have hlength : xs.length - b.reverse.length - 1 = a.reverse.length := by
    rw [hxs, List.length_append, List.length_cons]
    omega
  rw [Text.cutAtLast?, if_pos (List.contains_iff_mem.mpr h)]
  show some (xs.take (xs.length - (Text.afterLast sep xs).length - 1), Text.afterLast sep xs) = _
  rw [hafter, hlength, hxs, List.take_left]

/-- **The span of a tag**, if all bytes are counted: it starts at the last opening bracket of the
tag and stops behind the tag. -/
theorem exists_tagSpan_eq (place : Place) (all : List Char) (h : '<' ∈ all) :
    ∃ skipped range, all = skipped ++ '<' :: range ∧ '<' ∉ range ∧
      tagSpan 0 place all = ⟨place.advanceAll skipped, (place.advanceAll all).byte⟩ := by
  obtain ⟨skipped, range, hall, hrange, hcut⟩ := cutAtLast?_of_mem h
  refine ⟨skipped, range, hall, hrange, ?_⟩
  have hbytes : (place.advanceAll all).byte - place.byte = String.utf8Len all := by
    rw [Place.byte_advanceAll, Nat.add_sub_cancel_left]
  -- the look back is over the characters of the tag, no more and no fewer
  rw [tagSpan, Nat.sub_zero, hbytes, firstBytes?_utf8Len]
  dsimp only
  rw [hcut]
  rfl

theorem span_tagOf (lag : Nat) (place : Place) (content : List Char) :
    (tagOf lag place content).span = tagSpan lag place ('<' :: content ++ ['>']) :=
  rfl

/-- A tag lies between the places before and behind it. -/
theorem span_bounds (place : Place) (content : List Char) :
    place.byte ≤ (tagOf 0 place content).span.start.byte ∧
      (tagOf 0 place content).span.start.byte < (tagOf 0 place content).span.stop ∧
        (tagOf 0 place content).span.stop = (place.advanceAll ('<' :: content ++ ['>'])).byte := by
  obtain ⟨skipped, range, hall, -, hspan⟩ :=
    exists_tagSpan_eq place ('<' :: content ++ ['>']) (by simp)
  rw [span_tagOf, hspan]
  refine ⟨place.byte_le_advanceAll skipped, ?_, rfl⟩
  rw [hall, Place.advanceAll_append]
  exact (place.advanceAll skipped).byte_lt_advanceAll (List.cons_ne_nil _ _)

/-- If all bytes are counted, the tags that the reader finds follow one another. -/
theorem Standing.inOrder_spans {st st' : Standing} {ps : List Piece} (h : Reads 0 st ps st') :
    Span.InOrder st.place.byte st'.place.byte (spans ps) := by
  induction h with
  | here st => exact Nat.le_refl st.place.byte
  | @other st _ taken _ _ _ _ ih =>
    exact ih.mono (st.place.byte_le_advanceAll taken) (Nat.le_refl _)
  | @opening st _ taken tag _ _ hnext _ ih =>
    obtain ⟨content, rfl, rfl⟩ := opening_of_next hnext
    obtain ⟨hstart, hlt, hstop⟩ := span_bounds st.place content
    refine ⟨hstart, hlt, ?_⟩
    rw [hstop]
    exact ih
  | @closing st _ taken _ _ _ _ _ _ _ ih =>
    exact ih.mono (st.place.byte_le_advanceAll taken) (Nat.le_refl _)

/-! ## Components -/

/-- The components of a survey are those that one of the pieces adds to what was seen before it. -/
theorem mem_components_foldl {path : Path} {ps : List Piece} {s : Survey} {c : ManifestComponent} :
    c ∈ (ps.foldl (Survey.step path) s).components ↔ c ∈ s.components ∨
      ∃ found piece more, ps = found ++ piece :: more ∧
        (found.foldl (Survey.step path) s).added? path piece = some c := by
  induction ps generalizing s with
  | nil => simp
  | cons first ps ih =>
    rw [List.foldl_cons, ih, components_step, List.mem_append, Option.mem_toList, or_assoc]
    refine or_congr_right ?_
    constructor
    · rintro (hadded | ⟨found, piece, more, rfl, hadded⟩)
      · exact ⟨[], first, ps, rfl, hadded⟩
      · exact ⟨first :: found, piece, more, rfl, hadded⟩
    · rintro ⟨found, piece, more, hps, hadded⟩
      cases found with
      | nil =>
        obtain ⟨rfl, -⟩ := List.cons.inj hps
        exact .inl hadded
      | cons head found =>
        obtain ⟨rfl, hrest⟩ := List.cons.inj hps
        exact .inr ⟨found, piece, more, hrest, hadded⟩

/-! ## Tags in a text -/

/-- An opening tag where the reader of a text finds it, behind the tags of `found`. -/
structure TagAt (text : String) where
  found : List Piece
  opened : List String
  before : List Char
  /-- The characters between the brackets. -/
  content : List Char
  after : List Char
  tag : Tag
  text_eq : text.toList = before ++ ('<' :: content ++ '>' :: after)
  reads : Standing.Reads (lagOf text) (Standing.start text) found
    ⟨opened, Place.start.advanceAll before, '<' :: content ++ '>' :: after⟩
  next_eq : next (lagOf text) (Place.start.advanceAll before) ('<' :: content ++ '>' :: after) =
    .ok (.opening tag, '<' :: content ++ ['>'])

/-- A location covers the characters `range` behind the characters `before` of a text: it has their
bytes, and is shown at the first of them. -/
structure Covers (text : String) (l : Location) (before range after : List Char) : Prop where
  text_eq : text.toList = before ++ (range ++ after)
  start_eq : l.start = String.utf8Len before
  stop_eq : l.stop = String.utf8Len (before ++ range)
  line_eq : l.line = before.count '\n' + 1
  column_eq : l.column = String.utf8Len (Text.afterLast '\n' before) + 1

namespace Covers

variable {text : String} {l : Location} {before range after : List Char}

theorem start_lt_stop (h : Covers text l before range after) (hrange : range ≠ []) :
    l.start < l.stop := by
  have hpos : 0 < String.utf8Len range := Nat.pos_of_ne_zero (mt String.utf8Len_eq_zero.mp hrange)
  rw [h.start_eq, h.stop_eq, String.utf8Len_append]
  omega

/-- The line of a location starts in the text, at most as many bytes before the location as there
are. -/
theorem column_le (h : Covers text l before range after) : l.column ≤ l.start + 1 := by
  have hsuffix : Text.afterLast '\n' before <:+ before := by
    have hreverse := (List.takeWhile_prefix (fun c => !(c == '\n')) (l := before.reverse)).reverse
    rwa [List.reverse_reverse] at hreverse
  rw [h.start_eq, h.column_eq]
  exact Nat.succ_le_succ (String.utf8Len_le_of_suffix hsuffix)

end Covers

namespace TagAt

variable {path : Path} {text : String} (t : TagAt text)

/-- The characters of the tag. -/
def written : List Char := '<' :: t.content ++ ['>']

/-- What was seen before the tag. -/
def survey (path : Path) : Survey := t.found.foldl (Survey.step path) {}

/-- The tag lists a component: it has one of some names and stands in the application. -/
def ListsComponent (path : Path) : Prop :=
  (t.survey path).inApplication = true ∧ t.tag.name ∈ componentTags

/-- The component that the tag lists. -/
def component (path : Path) : ManifestComponent := componentOf path (t.survey path).package t.tag

theorem tag_eq : t.tag = tagOf (lagOf text) (Place.start.advanceAll t.before) t.content := by
  obtain ⟨content, htaken, htag⟩ := opening_of_next t.next_eq
  obtain rfl : t.content = content := by simpa using htaken
  exact htag

/-- The reader is behind a tag when it has found it, short of the bytes that it does not count. -/
theorem stop_eq : t.tag.span.stop = String.utf8Len (t.before ++ t.written) - lagOf text := by
  have hbehind : ((Place.start.advanceAll t.before).advanceAll t.written).byte =
      String.utf8Len (t.before ++ t.written) := by
    rw [← Place.advanceAll_append, Place.start_advanceAll]
  rw [← hbehind, tag_eq, stop_tagOf]
  rfl

/-- **A component covers its tag from the last opening bracket on**, if all bytes are counted. -/
theorem covers (path : Path) (hlag : lagOf text = 0) :
    ∃ skipped range, t.written = skipped ++ '<' :: range ∧ '<' ∉ range ∧
      Covers text (t.component path).location (t.before ++ skipped) ('<' :: range) t.after := by
  obtain ⟨skipped, range, hwritten, hrange, hspan⟩ :=
    exists_tagSpan_eq (Place.start.advanceAll t.before) t.written List.mem_cons_self
  refine ⟨skipped, range, hwritten, hrange, ?_⟩
  have htext : text.toList = t.before ++ (t.written ++ t.after) := by
    rw [t.text_eq, written]
    simp
  have hlocation : (t.component path).location = locationOf path
      ⟨Place.start.advanceAll (t.before ++ skipped),
        (Place.start.advanceAll (t.before ++ t.written)).byte⟩ := by
    show locationOf path t.tag.span = _
    rw [tag_eq, span_tagOf, hlag, Place.advanceAll_append, Place.advanceAll_append]
    exact congrArg (locationOf path) hspan
  rw [Place.start_advanceAll, Place.start_advanceAll] at hlocation
  constructor
  · rw [htext, hwritten]
    simp
  · rw [hlocation]
    rfl
  · rw [hlocation, List.append_assoc, ← hwritten]
    rfl
  · rw [hlocation]
    rfl
  · rw [hlocation]
    rfl

/-- A tag without another opening bracket is covered as a whole. -/
theorem covers_of_not_mem (path : Path) (hlag : lagOf text = 0) (hcontent : '<' ∉ t.content) :
    Covers text (t.component path).location t.before t.written t.after := by
  obtain ⟨skipped, range, hwritten, hrange, hcovers⟩ := t.covers path hlag
  cases skipped with
  | nil => rwa [List.append_nil, ← List.nil_append ('<' :: range), ← hwritten] at hcovers
  | cons c skipped =>
    -- otherwise the last opening bracket stands between the two brackets
    have hrest : t.content ++ ['>'] = skipped ++ '<' :: range := (List.cons.inj hwritten).2
    have hmem : '<' ∈ t.content ++ ['>'] := by simp [hrest]
    simp [hcontent] at hmem

/-- A tag is found where the reader gets to it. -/
theorem exists_of_reads {found more : List Piece} {tag : Tag} {st : Standing}
    (h : Standing.Reads (lagOf text) (Standing.start text) (found ++ .opening tag :: more) st) :
    ∃ t : TagAt text, t.found = found ∧ t.tag = tag := by
  obtain ⟨⟨opened, place, rest⟩, taken, hreads, -, hnext⟩ := Standing.exists_reads_of_append h
  obtain ⟨before, htext, hplace⟩ := Standing.exists_taken_of_reads hreads
  dsimp only at hnext htext hplace
  obtain ⟨content, rfl, -⟩ := opening_of_next hnext
  obtain ⟨after, rfl⟩ := taken_prefix hnext
  subst hplace
  have hrest : '<' :: content ++ ['>'] ++ after = '<' :: content ++ '>' :: after := by simp
  rw [hrest] at hreads hnext htext
  exact ⟨⟨found, opened, before, content, after, tag, htext, hreads, hnext⟩, rfl, rfl⟩

end TagAt

theorem added?_opening_eq_some_iff {path : Path} {s : Survey} {tag : Tag} {c : ManifestComponent} :
    s.added? path (.opening tag) = some c ↔
      (s.inApplication = true ∧ tag.name ∈ componentTags) ∧ c = componentOf path s.package tag := by
  rw [Survey.added?, Option.ite_none_right_eq_some, Bool.and_eq_true, List.contains_iff_mem,
    Option.some.injEq, @eq_comm _ c]

section Outline

variable {path : Path} {text : String} {o : Outline}

/-- **The components of a manifest are those that its tags list.** -/
theorem mem_components_iff {c : ManifestComponent} (h : outline path text = .ok o) :
    c ∈ o.components ↔ ∃ t : TagAt text, t.ListsComponent path ∧ c = t.component path := by
  obtain ⟨ps, hpieces, h⟩ := exists_of_bind_eq_ok h
  cases h
  rw [pieces_eq_tags] at hpieces
  show c ∈ (ps.foldl (Survey.step path) {}).components ↔ _
  rw [mem_components_foldl]
  constructor
  · rintro (hnone | ⟨found, piece, more, rfl, hadded⟩)
    · cases hnone
    · obtain ⟨tag, rfl, -⟩ := location_of_added? hadded
      obtain ⟨st, hreads, -⟩ := Standing.exists_reads_of_ok hpieces le_rfl
      obtain ⟨t, rfl, rfl⟩ := TagAt.exists_of_reads hreads
      exact ⟨t, added?_opening_eq_some_iff.mp hadded⟩
  · rintro ⟨t, hlists⟩
    obtain ⟨more, rfl⟩ :=
      Standing.exists_tags_of_reads t.reads (List.cons_ne_nil _ _) t.next_eq le_rfl hpieces
    exact .inr ⟨t.found, .opening t.tag, more, rfl, added?_opening_eq_some_iff.mpr hlists⟩

/-- The components of a manifest start one after the other, if all bytes are counted. -/
theorem pairwise_starts (h : outline path text = .ok o) (hlag : lagOf text = 0) :
    o.components.Pairwise fun a b => a.location.start < b.location.start := by
  obtain ⟨ps, hpieces, h⟩ := exists_of_bind_eq_ok h
  cases h
  obtain ⟨more, hmore, hsublist⟩ := exists_components_foldl path ps {}
  rw [pieces_eq_tags] at hpieces
  obtain ⟨st, hreads, -⟩ := Standing.exists_reads_of_ok hpieces le_rfl
  rw [hlag] at hreads
  have horder := Standing.inOrder_spans hreads
  -- a tag starts before it stops, and the next one starts no earlier than there
  have hstarts : ((spans ps).map (locationOf path)).Pairwise fun a b => a.start < b.start := by
    rw [List.pairwise_map]
    exact horder.pairwise.imp_of_mem fun hs _ hle => (horder.mem hs).2.1.trans_le hle
  have hordered := hstarts.sublist hsublist
  rw [List.pairwise_map] at hordered
  have hcomponents : (ps.foldl (Survey.step path) {}).components = more := hmore
  dsimp only
  rwa [hcomponents]

/-- All bytes are counted unless the text begins with a byte order mark. -/
theorem lagOf_eq_zero_iff : lagOf text = 0 ↔ text.toList.head? ≠ some '\uFEFF' := by
  rw [lagOf]
  by_cases h : text.toList.head? = some '\uFEFF'
  · rw [if_pos (beq_iff_eq.mpr h)]
    exact iff_of_false (by decide) (not_not_intro h)
  · rw [if_neg (mt beq_iff_eq.mp h)]
    exact iff_of_true rfl h

/-- **Where the components of a manifest are.** Behind a tag the reader tells the number of bytes up
to there, unless the text begins with a byte order mark. Then the components are those that the tags
list. The location of each lies on boundaries of characters, and its line and column are those of
its first byte. It covers the whole tag if no other opening bracket stands in the tag. The
components start one after the other. -/
theorem component_locations_exact (h : outline path text = .ok o) :
    (∀ t : TagAt text, t.tag.span.stop = String.utf8Len (t.before ++ t.written) ↔
      text.toList.head? ≠ some '\uFEFF') ∧
      (text.toList.head? ≠ some '\uFEFF' →
        (∀ c, c ∈ o.components ↔ ∃ t : TagAt text, t.ListsComponent path ∧ c = t.component path) ∧
        (∀ t : TagAt text, '<' ∉ t.content →
          Covers text (t.component path).location t.before t.written t.after) ∧
        (∀ c ∈ o.components, c.location.start < c.location.stop ∧
          c.location.column ≤ c.location.start + 1 ∧
          ∃ before range after, Covers text c.location before range after) ∧
        o.components.Pairwise fun a b => a.location.start < b.location.start) := by
  refine ⟨fun t => ?_, fun hmark => ?_⟩
  · have hpos : String.utf8Len (t.before ++ t.written) ≠ 0 := by
      rw [Ne, String.utf8Len_eq_zero]
      exact List.append_ne_nil_of_right_ne_nil _ (List.cons_ne_nil _ _)
    rw [← lagOf_eq_zero_iff, t.stop_eq]
    omega
  · have hlag := lagOf_eq_zero_iff.mpr hmark
    refine ⟨fun c => mem_components_iff h, fun t => t.covers_of_not_mem path hlag, fun c hc => ?_,
      pairwise_starts h hlag⟩
    obtain ⟨t, -, rfl⟩ := (mem_components_iff h).mp hc
    obtain ⟨skipped, range, -, -, hcovers⟩ := t.covers path hlag
    exact ⟨hcovers.start_lt_stop (List.cons_ne_nil _ _), hcovers.column_le, _, _, _, hcovers⟩

/-- A manifest with characters of several bytes before its tags, and a tag on two lines. -/
def wideManifest : String :=
  "<!-- é\n日 --><manifest><application>日<service\n a=\"é\"/>\n é " ++
    "<receiver/></application></manifest>"

/-- The components of that manifest. -/
theorem component_locations_exact_wide :
    ∃ o, outline ⟨"AndroidManifest.xml"⟩ wideManifest = .ok o ∧
      wideManifest.toList.head? ≠ some '\uFEFF' ∧
      (o.components.map fun c => c.location) =
        [⟨⟨"AndroidManifest.xml"⟩, 2, 34, 41, 59⟩, ⟨⟨"AndroidManifest.xml"⟩, 4, 5, 64, 75⟩] ∧
      (∀ t : TagAt wideManifest, '<' ∉ t.content →
        Covers wideManifest (t.component ⟨"AndroidManifest.xml"⟩).location t.before
          t.written t.after) ∧
      o.components.Pairwise fun a b => a.location.start < b.location.start := by
  have hread : (outline ⟨"AndroidManifest.xml"⟩ wideManifest).toOption.map
      (fun o => o.components.map fun c => c.location) =
        some [⟨⟨"AndroidManifest.xml"⟩, 2, 34, 41, 59⟩,
          ⟨⟨"AndroidManifest.xml"⟩, 4, 5, 64, 75⟩] := by
    decide +kernel
  have hmark : wideManifest.toList.head? ≠ some '\uFEFF' := by decide
  cases houtline : outline ⟨"AndroidManifest.xml"⟩ wideManifest with
  | error e =>
    rw [houtline] at hread
    cases hread
  | ok o =>
    rw [houtline] at hread
    obtain ⟨-, hcovers, -, hstarts⟩ := (component_locations_exact houtline).2 hmark
    exact ⟨o, rfl, hmark, Option.some.inj hread, hcovers, hstarts⟩

end Outline

end AdLint.Manifest
