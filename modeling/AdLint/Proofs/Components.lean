import AdLint.Manifest.Outline
import AdLint.Proofs.Placement
import AdLint.Proofs.Prelude

/-!
# Components of a manifest follow one another

A manifest is cut into pieces from left to right, and the range of a tag stops where the tag ends.
So the ranges of components stop at different bytes. Ends are counted without a byte order mark at
the start of the text, which takes nothing from this: a text with such a mark does not begin with a
tag, and behind the mark there are enough bytes to count off.

## Main definitions

* `Manifest.stops`, `Manifest.spans`: where the opening tags among some pieces stop, and their spans
* `Manifest.Survey.added?`: the component that a piece adds to a survey

## Main results

* `Manifest.pairwise_stops_pieces`: opening tags stop one after the other
* `Manifest.pairwise_components`: the components of a manifest stop one after the other, in its file
-/

namespace AdLint.Manifest

/-- Where a piece stops, if it is an opening tag. -/
def Piece.stop? : Piece → Option Nat
  | .opening tag => some tag.span.stop
  | _ => none

/-- Where the opening tags among some pieces stop. -/
def stops (ps : List Piece) : List Nat := ps.filterMap Piece.stop?

/-- The span of a piece, if it is an opening tag. -/
def Piece.span? : Piece → Option Span
  | .opening tag => some tag.span
  | _ => none

/-- The spans of the opening tags among some pieces. -/
def spans (ps : List Piece) : List Span := ps.filterMap Piece.span?

theorem stops_eq_map_spans (ps : List Piece) : stops ps = (spans ps).map fun span => span.stop := by
  have hstop : Piece.stop? = fun piece => piece.span?.map fun span => span.stop := by
    funext piece
    cases piece <;> rfl
  rw [stops, spans, List.map_filterMap, hstop]

section Pieces

variable {lag n : Nat} {opened : List String} {place : Place} {cs taken : List Char} {piece : Piece}
  {ps : List Piece}

theorem stop_tagOf (lag : Nat) (place : Place) (content : List Char) :
    (tagOf lag place content).span.stop =
      (place.advanceAll ('<' :: content ++ ['>'])).byte - lag := by
  have hspan : (tagSpan lag place ('<' :: content ++ ['>'])).stop =
      (place.advanceAll ('<' :: content ++ ['>'])).byte - lag := by
    rw [tagSpan]
    split <;> rfl
  rw [tagOf]
  split
  exact hspan

/-- An opening tag is made of what stands between its brackets. -/
theorem opening_of_next {tag : Tag} (h : next lag place cs = .ok (.opening tag, taken)) :
    ∃ content, taken = '<' :: content ++ ['>'] ∧ tag = tagOf lag place content := by
  unfold next at h
  -- every kind of piece but one is no opening tag
  split at h
  · cases hdeclaration : declaration _ with
    | error e => rw [hdeclaration] at h; cases h
    | ok taken => rw [hdeclaration] at h; cases h
  · cases h
  · split at h <;> cases h
  · split at h <;> cases h
  · split at h
    · next content _ =>
      cases h
      exact ⟨content, rfl, rfl⟩
    · cases h
  · dsimp only at h
    split at h <;> cases h
  · cases h

/-- An opening tag takes characters, and stops behind them. -/
theorem stop_of_next {tag : Tag} (h : next lag place cs = .ok (.opening tag, taken)) :
    taken ≠ [] ∧ tag.span.stop = (place.advanceAll taken).byte - lag := by
  obtain ⟨content, rfl, rfl⟩ := opening_of_next h
  exact ⟨List.cons_ne_nil _ _, stop_tagOf lag place content⟩

/-- What the pieces of a text begin with, and the pieces behind it. -/
theorem exists_of_piecesAux_cons {c : Char}
    (h : piecesAux lag (n + 1) opened place (c :: cs) = .ok ps) :
    ∃ piece taken opened' rest, next lag place (c :: cs) = .ok (piece, taken) ∧
      piecesAux lag n opened' (place.advanceAll taken) ((c :: cs).drop taken.length) = .ok rest ∧
        stops ps = piece.stop?.toList ++ stops rest := by
  rw [piecesAux] at h
  swap
  · exact List.cons_ne_nil c cs
  obtain ⟨⟨piece, taken⟩, hnext, h⟩ := exists_of_bind_eq_ok h
  dsimp only at h
  cases piece with
  | other => exact ⟨_, taken, opened, ps, hnext, h, rfl⟩
  | opening tag =>
    obtain ⟨rest, hrest, h⟩ := exists_of_bind_eq_ok h
    cases h
    exact ⟨_, taken, _, rest, hnext, hrest, rfl⟩
  | closing name =>
    cases opened with
    | nil => cases h
    | cons innermost opened =>
      dsimp only at h
      split at h
      · obtain ⟨rest, hrest, h⟩ := exists_of_bind_eq_ok h
        cases h
        exact ⟨_, taken, opened, rest, hnext, hrest, rfl⟩
      · cases h

/-- Behind the bytes that are not counted, opening tags stop one after the other. -/
theorem pairwise_stops_piecesAux (hlag : lag ≤ place.byte)
    (h : piecesAux lag n opened place cs = .ok ps) :
    (stops ps).Pairwise (· < ·) ∧ ∀ stop ∈ stops ps, place.byte - lag < stop := by
  induction n generalizing opened place cs ps with
  | zero =>
    cases h
    exact ⟨.nil, by simp [stops]⟩
  | succ n ih =>
    cases cs with
    | nil =>
      cases h
      exact ⟨.nil, by simp [stops]⟩
    | cons c cs =>
      obtain ⟨piece, taken, opened', rest, hnext, hrest, hstops⟩ := exists_of_piecesAux_cons h
      have hmove := place.byte_le_advanceAll taken
      obtain ⟨hpairs, hbehind⟩ := ih (hlag.trans hmove) hrest
      rw [hstops]
      -- a tag stops behind the place before it, and what follows stops behind the tag
      cases hstop : piece.stop? with
      | none => exact ⟨hpairs, fun stop hmem => (by omega : _ ≤ _).trans_lt (hbehind stop hmem)⟩
      | some stop =>
        obtain ⟨tag, rfl, rfl⟩ : ∃ tag, piece = .opening tag ∧ stop = tag.span.stop := by
          cases piece with
          | opening tag => exact ⟨tag, rfl, (Option.some.inj hstop).symm⟩
          | _ => cases hstop
        obtain ⟨htaken, hend⟩ := stop_of_next hnext
        have hlt := place.byte_lt_advanceAll htaken
        rw [← hend] at hbehind
        refine ⟨.cons hbehind hpairs, List.forall_mem_cons.mpr ⟨by omega, fun stop hmem => ?_⟩⟩
        have := hbehind stop hmem
        omega

/-- A text that begins with a byte order mark does not begin with a tag. -/
theorem next_of_mark (lag : Nat) (place : Place) (cs : List Char) :
    ∃ taken, next lag place ('\uFEFF' :: cs) = .ok (.other, '\uFEFF' :: taken) :=
  ⟨_, rfl⟩

end Pieces

/-- **Opening tags stop one after the other.** -/
theorem pairwise_stops_pieces {text : String} {ps : List Piece} (h : pieces text = .ok ps) :
    (stops ps).Pairwise (· < ·) := by
  rw [pieces] at h
  split at h
  · next hmark =>
    obtain ⟨cs, hcs⟩ := List.head?_eq_some_iff.mp (beq_iff_eq.mp hmark)
    rw [hcs, List.length_cons] at h
    obtain ⟨piece, taken, opened, rest, hnext, hrest, hstops⟩ := exists_of_piecesAux_cons h
    obtain ⟨more, hother⟩ := next_of_mark '\uFEFF'.utf8Size Place.start cs
    rw [hother] at hnext
    cases hnext
    rw [hstops]
    -- the mark itself is what is not counted
    have hlag : '\uFEFF'.utf8Size ≤ (Place.start.advanceAll ('\uFEFF' :: more)).byte :=
      (Place.start.advance '\uFEFF').byte_le_advanceAll more
    exact (pairwise_stops_piecesAux hlag hrest).1
  · exact (pairwise_stops_piecesAux (Nat.zero_le _) h).1

/-! ## The components of a manifest -/

/-- The component that a piece adds to a survey, if it adds one. -/
def Survey.added? (path : Path) (s : Survey) : Piece → Option ManifestComponent
  | .opening tag =>
    if s.inApplication && componentTags.contains tag.name then some (componentOf path s.package tag)
    else none
  | _ => none

theorem components_step (path : Path) (s : Survey) (piece : Piece) :
    (s.step path piece).components = s.components ++ (s.added? path piece).toList := by
  have hkept : s.components = s.components ++ (none : Option ManifestComponent).toList :=
    (List.append_nil s.components).symm
  cases piece with
  | opening tag =>
    by_cases hlisted : (s.inApplication && componentTags.contains tag.name) = true
    · -- the manifest and the application are no components themselves
      have hname : ∀ name, componentTags.contains name = false → ¬ (tag.name == name) = true := by
        intro name hname heq
        rw [beq_iff_eq.mp heq, hname, Bool.and_false] at hlisted
        cases hlisted
      rw [Survey.step, if_neg (hname _ (by decide)), if_neg (hname _ (by decide)), if_pos hlisted,
        Survey.added?, if_pos hlisted]
      rfl
    · rw [Survey.step, Survey.added?, if_neg hlisted, if_neg hlisted]
      split
      · exact hkept
      · split <;> exact hkept
  | closing name =>
    rw [Survey.step]
    split <;> exact hkept
  | other => exact hkept

/-- The location that a component with a tag of this span gets. -/
def locationOf (path : Path) (span : Span) : Location :=
  Source.locate { path, text := "" } span span

theorem location_of_added? {path : Path} {s : Survey} {piece : Piece} {c : ManifestComponent}
    (h : s.added? path piece = some c) :
    ∃ tag, piece = .opening tag ∧ c.location = locationOf path tag.span := by
  cases piece with
  | opening tag =>
    obtain ⟨-, hsome⟩ := Option.ite_none_right_eq_some.mp h
    cases hsome
    exact ⟨tag, rfl, rfl⟩
  | _ => cases h

/-- A survey of pieces adds components at opening tags, in order. -/
theorem exists_components_foldl (path : Path) (ps : List Piece) (s : Survey) :
    ∃ more, (ps.foldl (Survey.step path) s).components = s.components ++ more ∧
      (more.map fun c => c.location).Sublist ((spans ps).map (locationOf path)) := by
  induction ps generalizing s with
  | nil => exact ⟨[], by simp, by simp [spans]⟩
  | cons piece ps ih =>
    obtain ⟨more, hmore, hsublist⟩ := ih (s.step path piece)
    refine ⟨(s.added? path piece).toList ++ more, ?_, ?_⟩
    · rw [List.foldl_cons, hmore, components_step, List.append_assoc]
    -- one piece adds the component that it lists, or nothing
    · cases hadded : s.added? path piece with
      | none => exact hsublist.trans (((List.sublist_cons_self piece ps).filterMap _).map _)
      | some c =>
        obtain ⟨tag, rfl, hlocation⟩ := location_of_added? hadded
        rw [Option.toList_some, List.singleton_append, List.map_cons, hlocation]
        exact hsublist.cons_cons (locationOf path tag.span)

/-- **The components of a manifest stop one after the other, in its file.** It has no calls. -/
theorem pairwise_components {path : Path} {text : String} {o : Outline}
    (h : outline path text = .ok o) :
    o.components.Pairwise (fun a b => a.location.stop < b.location.stop) ∧
      (∀ c ∈ o.components, c.location.file = path) ∧ o.calls = [] := by
  obtain ⟨ps, hpieces, h⟩ := exists_of_bind_eq_ok h
  cases h
  obtain ⟨more, hmore, hsublist⟩ := exists_components_foldl path ps {}
  have hstops : ((spans ps).map (locationOf path)).Pairwise fun a b => a.stop < b.stop := by
    have hpieces := pairwise_stops_pieces hpieces
    rw [stops_eq_map_spans, List.pairwise_map] at hpieces
    exact List.pairwise_map.mpr hpieces
  have hcomponents : (ps.foldl (Survey.step path) {}).components = more := hmore
  refine ⟨?_, fun c hc => ?_, rfl⟩
  · dsimp only
    have hordered := hstops.sublist hsublist
    rw [List.pairwise_map] at hordered
    rwa [hcomponents]
  · dsimp only at hc
    rw [hcomponents] at hc
    obtain ⟨span, -, hspan⟩ := List.mem_map.mp (hsublist.subset (List.mem_map_of_mem hc))
    rw [← hspan]
    rfl

end AdLint.Manifest
