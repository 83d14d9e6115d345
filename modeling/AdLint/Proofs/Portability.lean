import AdLint.Proofs.Covering
import AdLint.Proofs.FileChange
import Mathlib.Data.List.Forall2

/-!
# Baselines in another place

A baseline that was made in one directory can be used in another one. The entries name files as they
are seen from the directory, so what has to be shown is that a directory and a path below it, joined
to one text, are taken apart into the same path again. The directory may be written in any way: it
may be empty, begin at the root or with a dot, have slashes at its end and dots and empty segments
anywhere. Joining puts a slash in or leaves it out accordingly, and the components of the directory
are found again at the start of the joined path, with what is no component skipped.

The place of a finding in its file, how grave it is and how sure it is do not count for the key.

## Main definitions

* `Path.IsPlain`: a path that goes down from where it starts
* `Finding.MovedTo`: the same finding below another directory

## Main results

* `Path.IsPlain.relativeTo?_join`: a directory is taken off again
* `Baseline.keysOf_eq_of_moved`: findings that were moved have the keys they had
* `Baseline.moved_findings_compare_alike`: a baseline covers them at the same places
-/

namespace AdLint

/-! ## Pieces between slashes -/

theorem Text.pieces_append_sep {α : Type} [BEq α] [ReflBEq α] (sep : α) (xs ys : List α) :
    Text.pieces sep (xs ++ sep :: ys) = Text.pieces sep xs ++ Text.pieces sep ys := by
  induction xs with
  | nil => simp [Text.pieces]
  | cons x xs ih =>
    rw [List.cons_append, Text.pieces, Text.pieces, ih]
    split
    · rfl
    · cases hxs : Text.pieces sep xs with
      | nil => exact absurd hxs (Text.pieces_ne_nil sep xs)
      | cons piece pieces => rfl

theorem Text.pieces_eq_singleton_nil_iff {α : Type} [BEq α] {sep : α} {xs : List α} :
    Text.pieces sep xs = [[]] ↔ xs = [] := by
  cases xs with
  | nil => exact iff_of_true rfl rfl
  | cons x xs =>
    refine iff_of_false ?_ (List.cons_ne_nil _ _)
    rw [Text.pieces]
    split
    · simp [Text.pieces_ne_nil]
    · split <;> simp

namespace Path

variable {p base : Path}

/-! ## Paths below a directory -/

/-- The segments of a path, with those that are no components. -/
def segments (p : Path) : List (List Char) := Text.pieces '/' p.text.toList

/-- A path that goes down from where it starts: it has components, and all of them are names. -/
structure IsPlain (p : Path) : Prop where
  nonempty : p.components ≠ []
  named : ∀ c ∈ p.components, ∃ name, c = .named name

/-- What segments stand for: how they begin, and those after that. -/
def beginning : List (List Char) → Option Component × List (List Char)
  | [] :: segment :: rest => (some .root, segment :: rest)
  | ['.'] :: rest => (some .current, rest)
  | segments => (none, segments)

theorem parts_eq_beginning (p : Path) : p.parts = beginning p.segments := rfl

theorem isVoid_iff {segment : List Char} :
    isVoid segment = true ↔ segment = [] ∨ segment = ['.'] := by
  rw [isVoid, Option.isNone_iff_eq_none, ofSegment]
  split
  · next h => simpa using h
  · next h =>
    split <;> simpa using h

theorem beginning_of_not_void {segment : List Char} {rest : List (List Char)}
    (h : isVoid segment = false) : beginning (segment :: rest) = (none, segment :: rest) := by
  have hne : segment ≠ [] ∧ segment ≠ ['.'] := by
    rw [← not_or, ← isVoid_iff, h]
    exact Bool.false_ne_true
  unfold beginning
  split
  · next heq => exact absurd (List.cons.inj heq).1 hne.1
  · next heq => exact absurd (List.cons.inj heq).1 hne.2
  · rfl

/-- A plain path begins with a component. -/
theorem IsPlain.exists_segments (h : p.IsPlain) :
    ∃ segment rest, p.segments = segment :: rest ∧ isVoid segment = false := by
  obtain ⟨hne, hnamed⟩ := h
  rw [components, parts_eq_beginning] at hne hnamed
  rcases hsegments : p.segments with _ | ⟨segment, rest⟩
  · exact absurd hsegments (Text.pieces_ne_nil '/' _)
  · refine ⟨segment, rest, rfl, ?_⟩
    rw [hsegments] at hne hnamed
    by_contra hvoid
    rw [Bool.not_eq_false, isVoid_iff] at hvoid
    rcases hvoid with rfl | rfl
    · cases rest with
      | nil => exact hne rfl
      | cons next rest =>
        obtain ⟨name, hname⟩ := hnamed .root List.mem_cons_self
        cases hname
    · obtain ⟨name, hname⟩ := hnamed .current List.mem_cons_self
      cases hname

theorem IsPlain.isAbsolute_eq_false (h : p.IsPlain) : p.isAbsolute = false := by
  obtain ⟨segment, rest, hsegments, hvoid⟩ := h.exists_segments
  rw [isAbsolute]
  cases htext : p.text.toList with
  | nil => rfl
  | cons c cs =>
    rw [List.head?_cons]
    by_contra habsolute
    rw [Bool.not_eq_false, beq_iff_eq, Option.some.injEq] at habsolute
    rw [segments, htext, habsolute, Text.pieces, if_pos (beq_self_eq_true '/'),
      List.cons.injEq] at hsegments
    rw [← hsegments.1] at hvoid
    cases hvoid

/-- The segments of a path below a directory: those of the directory, without an empty one at
the end, and then those of the path. -/
theorem IsPlain.exists_segments_join (h : p.IsPlain) (base : Path) :
    ∃ before tail, (base.join p).segments = before ++ p.segments ∧ base.segments = before ++ tail ∧
      (tail = [[]] ∨ tail = [] ∧ before ≠ [[]]) := by
  rw [join, if_neg (by simp [h.isAbsolute_eq_false])]
  by_cases hempty : base.text = ""
  · rw [if_pos (by simp [hempty])]
    refine ⟨[], [[]], ?_, ?_, .inl rfl⟩
    · rw [hempty, String.empty_append, List.nil_append]
    · rw [segments, hempty]
      rfl
  · by_cases hslash : base.text.toList.getLast? = some '/'
    · rw [if_pos (by simp [hslash])]
      obtain ⟨dir, hdir⟩ := List.getLast?_eq_some_iff.mp hslash
      refine ⟨Text.pieces '/' dir, [[]], ?_, ?_, .inl rfl⟩
      · rw [segments, String.toList_append, hdir, List.append_assoc, List.singleton_append,
          Text.pieces_append_sep, segments]
      · rw [segments, hdir, Text.pieces_append_sep]
        rfl
    · rw [if_neg (by simp [hslash, hempty])]
      refine ⟨base.segments, [], ?_, (List.append_nil _).symm, .inr ⟨rfl, ?_⟩⟩
      · rw [segments, String.toList_append, String.toList_append, List.append_assoc]
        exact Text.pieces_append_sep '/' _ _
      · rw [segments, ne_eq, Text.pieces_eq_singleton_nil_iff]
        simpa using hempty

theorem beginning_root {rest : List (List Char)} (h : rest ≠ []) :
    beginning ([] :: rest) = (some .root, rest) := by
  cases rest with
  | nil => exact absurd rfl h
  | cons segment rest => rfl

/-- A path below a directory begins as the directory does and then has the components of the
directory. If the directory has no components, nothing stands before the path. -/
theorem IsPlain.exists_parts_join (h : p.IsPlain) (base : Path) :
    ∃ between, (base.join p).parts = (base.parts.1, between ++ p.segments) ∧
      base.components = base.parts.1.toList ++ between.filterMap ofSegment ∧
      (base.components = [] → between = []) := by
  obtain ⟨segment, rest, hsegments, hvoid⟩ := h.exists_segments
  obtain ⟨before, tail, hjoin, hbase, htail⟩ := h.exists_segments_join base
  have hnone : tail.filterMap ofSegment = [] := by
    rcases htail with rfl | ⟨rfl, -⟩ <;> rfl
  rw [components, parts_eq_beginning, parts_eq_beginning, hjoin, hbase, hsegments]
  rcases before with _ | ⟨first, before⟩
  · -- the directory is the empty path
    obtain rfl : tail = [[]] := by
      rcases htail with htail | ⟨rfl, -⟩
      · exact htail
      · exact absurd hbase (Text.pieces_ne_nil '/' _)
    exact ⟨[], beginning_of_not_void hvoid, rfl, fun _ => rfl⟩
  · cases hfirst : isVoid first with
    | false =>
      rw [List.cons_append, List.cons_append, beginning_of_not_void hfirst,
        beginning_of_not_void hfirst]
      have hcomponents : (first :: (before ++ tail)).filterMap ofSegment =
          (first :: before).filterMap ofSegment := by
        rw [← List.cons_append, List.filterMap_append, hnone, List.append_nil]
      refine ⟨first :: before, rfl, hcomponents, fun hempty => ?_⟩
      have hnothing := List.filterMap_eq_nil_iff.mp hempty first List.mem_cons_self
      rw [isVoid, hnothing] at hfirst
      cases hfirst
    | true =>
      -- what is left of the directory has no component in `tail`
      have hcomponents : (before ++ tail).filterMap ofSegment = before.filterMap ofSegment := by
        rw [List.filterMap_append, hnone, List.append_nil]
      refine ⟨before, ?_⟩
      rcases isVoid_iff.mp hfirst with rfl | rfl
      · have hne : before ++ tail ≠ [] := by
          rcases htail with rfl | ⟨rfl, hbefore⟩
          · exact List.append_ne_nil_of_right_ne_nil _ (List.cons_ne_nil _ _)
          · rintro heq
            exact hbefore (by rw [(List.append_eq_nil_iff.mp heq).1])
        rw [List.cons_append, List.cons_append, beginning_root hne,
          beginning_root (List.append_ne_nil_of_right_ne_nil _ (List.cons_ne_nil _ _)), hcomponents]
        exact ⟨rfl, rfl, fun hempty => absurd hempty (List.cons_ne_nil _ _)⟩
      · exact ⟨rfl, congrArg _ hcomponents, fun hempty => absurd hempty (List.cons_ne_nil _ _)⟩

/-- The components of some segments are taken off these segments. Of what stands before the rest,
only segments that are no components may be left. -/
theorem exists_segmentsAfter? (before rest : List (List Char)) :
    ∃ voids, (∀ v ∈ voids, isVoid v = true) ∧
      segmentsAfter? (before.filterMap ofSegment) (before ++ rest) = some (voids ++ rest) := by
  induction before with
  | nil => exact ⟨[], List.forall_mem_nil _, rfl⟩
  | cons s before ih =>
    cases hs : ofSegment s with
    | none =>
      have hvoid : isVoid s = true := by rw [isVoid, hs]; rfl
      rw [List.filterMap_cons_none hs]
      cases hcs : before.filterMap ofSegment with
      | nil =>
        refine ⟨s :: before, ?_, rfl⟩
        rw [List.forall_mem_cons]
        refine ⟨hvoid, fun v hv => ?_⟩
        rw [isVoid, List.filterMap_eq_nil_iff.mp hcs v hv]
        rfl
      | cons c cs =>
        rw [hcs] at ih
        obtain ⟨voids, hvoids, hrest⟩ := ih
        refine ⟨voids, hvoids, ?_⟩
        rw [← hrest, segmentsAfter?, segmentsAfter?, List.cons_append,
          List.dropWhile_cons_of_pos hvoid]
    | some c =>
      obtain ⟨voids, hvoids, hrest⟩ := ih
      refine ⟨voids, hvoids, ?_⟩
      have hvoid : ¬ isVoid s = true := by rw [isVoid, hs]; exact Bool.false_ne_true
      rw [List.filterMap_cons_some hs, List.cons_append, segmentsAfter?,
        List.dropWhile_cons_of_neg hvoid]
      simp [hs, hrest]

/-- **A directory that a plain path was joined to is taken off again.** What is left does not depend
on the directory. -/
theorem IsPlain.relativeTo?_join (h : p.IsPlain) (base : Path) :
    (base.join p).relativeTo? base = some ⟨textFrom none p.segments⟩ := by
  obtain ⟨segment, rest, hsegments, hvoid⟩ := h.exists_segments
  obtain ⟨between, hparts, hcomponents, hnil⟩ := h.exists_parts_join base
  obtain ⟨voids, hvoids, hafter⟩ := exists_segmentsAfter? between p.segments
  have hdrop : (voids ++ p.segments).dropWhile isVoid = p.segments := by
    rw [List.dropWhile_append_of_pos hvoids, hsegments,
      List.dropWhile_cons_of_neg (by simp [hvoid])]
  rw [relativeTo?, hparts]
  cases hstart : base.parts.1 with
  | none =>
    rw [hstart] at hcomponents
    cases hbase : base.components with
    | nil => rw [hnil hbase]; rfl
    | cons c cs =>
      have hcs : between.filterMap ofSegment = c :: cs := hcomponents.symm.trans hbase
      rw [hcs] at hafter
      simp only [hafter, Option.map_some, hdrop]
  | some first =>
    rw [hstart] at hcomponents
    have hcs : base.components = first :: between.filterMap ofSegment := hcomponents
    rw [hcs]
    simp only [beq_self_eq_true, if_true, hafter, Option.map_some, hdrop]

end Path

/-! ## Findings below another directory -/

/-- The same finding below another directory. Its file is the same path as seen from there. Where in
the file it is, how grave and how sure may all have changed. -/
structure Finding.MovedTo (base base' : Path) (f f' : Finding) : Prop where
  rule : f'.rule = f.rule
  subject : f'.subject = f.subject
  message : f'.message = f.message
  file : ∃ p : Path, p.IsPlain ∧ f.location.file = base.join p ∧ f'.location.file = base'.join p

namespace Baseline

variable {base base' : Path} {f f' : Finding} {found found' : List Finding}

theorem keyOf_eq_of_movedTo (h : f.MovedTo base base' f') : keyOf base' f' = keyOf base f := by
  obtain ⟨p, hp, hfile, hfile'⟩ := h.file
  rw [keyOf, keyOf, h.rule, h.subject, h.message, hfile, hfile', hp.relativeTo?_join,
    hp.relativeTo?_join, Option.getD_some, Option.getD_some]

/-- **Findings that were moved have the keys they had.** -/
theorem keysOf_eq_of_moved (h : List.Forall₂ (Finding.MovedTo base base') found found') :
    keysOf base' found' = keysOf base found := by
  induction h with
  | nil => rw [keysOf_nil, keysOf_nil]
  | cons hf _ ih => rw [keysOf_cons, keysOf_cons, keyOf_eq_of_movedTo hf, ih]

/-- A comparison depends on the keys of the findings alone. -/
theorem comparison_eq_of_keysOf (b : Baseline) (h : keysOf base' found' = keysOf base found) :
    b.comparison base' found' = b.comparison base found := by
  have hlength : found'.length = found.length := by
    rw [← length_keysOf base', ← length_keysOf base, h]
  have hnew : (b.newOf base' found').length = (b.newOf base found).length := by
    rw [length_newOf, length_newOf, h]
  rw [comparison, comparison, hlength, hnew]

/-- **A baseline is used in another directory as in its own.** Let findings be moved to another
directory, and change in place, gravity and confidence. Every baseline leaves the findings at the
same places, and compares with them in the same numbers. And the baseline of the findings, made in
the first directory, covers all of them in the second. -/
theorem moved_findings_compare_alike (h : List.Forall₂ (Finding.MovedTo base base') found found') :
    (∀ b : Baseline,
      b.newOf base found = (openPlaces b.keys (keysOf base found)).filterMap (fun i => found[i]?) ∧
        b.newOf base' found' =
          (openPlaces b.keys (keysOf base found)).filterMap (fun i => found'[i]?) ∧
        b.comparison base' found' = b.comparison base found) ∧
      (ofFindings base found).newOf base' found' = [] := by
  have hkeys := keysOf_eq_of_moved h
  refine ⟨fun b => ⟨uncovered_eq_filterMap, ?_, comparison_eq_of_keysOf b hkeys⟩, ?_⟩
  · rw [← hkeys]
    exact uncovered_eq_filterMap
  · have hown : (ofFindings base found).newOf base found = [] :=
      newOf_ofFindings (List.Subperm.refl found)
    rw [← List.length_eq_zero_iff, length_newOf, hkeys, ← length_newOf, hown, List.length_nil]

/-- Two findings with one key. -/
def storeFindings : List Finding :=
  [ .ofRule .unprefixedFile ⟨⟨"./src//Store.java"⟩, 10, 9, 200, 220⟩ "topics.db",
    .ofRule .unprefixedFile ⟨⟨"./src//Store.java"⟩, 12, 9, 260, 280⟩ "topics.db" ]

/-- The findings in another directory, further down in the file and judged differently. -/
def movedFindings : List Finding :=
  [ { Finding.ofRule .unprefixedFile ⟨⟨"/repo/src//Store.java"⟩, 42, 5, 900, 920⟩ "topics.db" with
      severity := .info },
    { Finding.ofRule .unprefixedFile ⟨⟨"/repo/src//Store.java"⟩, 44, 5, 960, 980⟩ "topics.db" with
      confidence := .low } ]

/-- A baseline with one of the two findings leaves the second one in either directory, and the
baseline with both leaves none. -/
theorem moved_findings_compare_alike_store :
    List.Forall₂ (Finding.MovedTo ⟨"."⟩ ⟨"/repo/"⟩) storeFindings movedFindings ∧
      openPlaces (ofFindings ⟨"."⟩ (storeFindings.take 1)).keys (keysOf ⟨"."⟩ storeFindings) = [1] ∧
      (ofFindings ⟨"."⟩ (storeFindings.take 1)).newOf ⟨"/repo/"⟩ movedFindings =
        movedFindings.drop 1 ∧
      (ofFindings ⟨"."⟩ storeFindings).newOf ⟨"/repo/"⟩ movedFindings = [] := by
  have hplain : Path.IsPlain ⟨"src//Store.java"⟩ := by
    have hcomponents :
        Path.components ⟨"src//Store.java"⟩ = [.named "src", .named "Store.java"] := by
      decide
    refine ⟨by rw [hcomponents]; exact List.cons_ne_nil _ _, fun c hc => ?_⟩
    rw [hcomponents, List.mem_pair] at hc
    rcases hc with rfl | rfl <;> exact ⟨_, rfl⟩
  have hmoved : List.Forall₂ (Finding.MovedTo ⟨"."⟩ ⟨"/repo/"⟩) storeFindings movedFindings :=
    .cons ⟨rfl, rfl, rfl, _, hplain, by decide, by decide⟩
      (.cons ⟨rfl, rfl, rfl, _, hplain, by decide, by decide⟩ .nil)
  obtain ⟨hplaces, hown⟩ := moved_findings_compare_alike hmoved
  have hopen : openPlaces (ofFindings ⟨"."⟩ (storeFindings.take 1)).keys
      (keysOf ⟨"."⟩ storeFindings) = [1] := by
    decide +kernel
  refine ⟨hmoved, hopen, ?_, hown⟩
  rw [(hplaces _).2.1, hopen]
  rfl

end Baseline

end AdLint
