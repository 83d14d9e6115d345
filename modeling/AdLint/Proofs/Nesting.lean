import AdLint.Proofs.Placement
import AdLint.Source.Harvest
import Mathlib.Data.List.Basic

/-!
# Declarations nest like the nodes they are written by

A declaration takes its identifier from the span of a node. Where the nodes of a tree are placed,
different nodes therefore give different identifiers, and a declaration on a node encloses what is
declared in a part of it. That it does so properly needs one more thing, that the node has another
part, since a node with only one part has the span of that part.

## Main definitions

* `DeclarationId.Encloses`: the range of an identifier holds that of another one, and more
* `Nested path outer lo hi ds`: the declarations `ds` between two bytes are distinct, and of each
  one the parent is `outer` or an earlier one around it

## Main results

* `Nested.flatMap`, `Nested.select`: what the nodes of a placed forest declare nests, if what each
  of them declares does
* `Nested.cons_select`: a declaration on a node and then what is declared inside it
* `Nested.cons_beside_select`: a declaration on a node and then what is declared beside it, in the
  parts of the node
-/

namespace AdLint

open AdLint.Tree (PlacedIn)

variable {lo hi : Nat} {path : Path}

/-- The range of an identifier holds that of another one in the same file, and more. -/
structure DeclarationId.Encloses (outer inner : DeclarationId) : Prop where
  file : outer.file.components = inner.file.components
  start_le : outer.start ≤ inner.start
  stop_le : inner.stop ≤ outer.stop
  proper : outer.start < inner.start ∨ inner.stop < outer.stop

/-- A declaration is written on a span of a file. -/
structure Declaration.WrittenOn (path : Path) (span : Span) (d : Declaration) : Prop where
  id_eq : d.id = ⟨path, span.start.byte, span.stop⟩
  file_eq : d.location.file = path

/-- The declarations between two bytes of a file, inside the declaration `outer`: no two of them
have the same identifier, and of each one the parent is `outer` or an earlier one around it. -/
structure Nested (path : Path) (outer : Option DeclarationId) (lo hi : Nat)
    (ds : List Declaration) :
    Prop where
  within : ∀ d ∈ ds, d.id.file = path ∧ d.location.file = path ∧
    lo ≤ d.id.start ∧ d.id.start < d.id.stop ∧ d.id.stop ≤ hi
  distinct : ds.Pairwise fun a b => a.id ≠ b.id
  parents : ∀ {before after : List Declaration} {d : Declaration}, ds = before ++ d :: after →
    d.parent = outer ∨ ∃ e ∈ before, d.parent = some e.id ∧ e.id.Encloses d.id

namespace Nested

variable {outer : Option DeclarationId} {ds as bs : List Declaration} {d : Declaration}

theorem nil : Nested path outer lo hi [] where
  within := by simp
  distinct := .nil
  parents h := by simp at h

theorem mono {lo' hi' : Nat} (h : Nested path outer lo hi ds) (hlo : lo' ≤ lo) (hhi : hi ≤ hi') :
    Nested path outer lo' hi' ds where
  within d hd := by
    obtain ⟨hid, hfile, hstart, hne, hstop⟩ := h.within d hd
    exact ⟨hid, hfile, hlo.trans hstart, hne, hstop.trans hhi⟩
  distinct := h.distinct
  parents := h.parents

theorem append (ha : Nested path outer lo hi as) (hb : Nested path outer lo hi bs)
    (hne : ∀ a ∈ as, ∀ b ∈ bs, a.id ≠ b.id) : Nested path outer lo hi (as ++ bs) where
  within d hd := by
    rcases List.mem_append.mp hd with hd | hd
    · exact ha.within d hd
    · exact hb.within d hd
  distinct := List.pairwise_append.mpr ⟨ha.distinct, hb.distinct, hne⟩
  parents := by
    intro before after d h
    -- `d` is one of `bs`, the first of them, or one of `as`
    rcases List.append_eq_append_iff.mp h with ⟨between, rfl, hbs⟩ | ⟨between, has, hbs⟩
    · rcases hb.parents hbs with hd | ⟨e, he, hd⟩
      · exact .inl hd
      · exact .inr ⟨e, List.mem_append_right as he, hd⟩
    · cases between with
      | nil =>
        have hfirst : bs = [] ++ d :: after := hbs.symm
        rcases hb.parents hfirst with hd | ⟨e, he, -⟩
        · exact .inl hd
        · simp at he
      | cons d' between =>
        obtain ⟨rfl, rfl⟩ := List.cons.inj hbs
        exact ha.parents has

/-- What stands before some byte and what stands behind it. -/
theorem append_of_le {mid : Nat} (ha : Nested path outer lo mid as)
    (hb : Nested path outer mid hi bs)
    (hlo : lo ≤ mid) (hhi : mid ≤ hi) : Nested path outer lo hi (as ++ bs) := by
  refine (ha.mono le_rfl hhi).append (hb.mono hlo le_rfl) fun a ha' b hb' hab => ?_
  obtain ⟨-, -, -, hne, hstop⟩ := ha.within a ha'
  obtain ⟨-, -, hstart, -⟩ := hb.within b hb'
  rw [hab] at hne hstop
  exact absurd (hne.trans_le (hstop.trans hstart)) (lt_irrefl _)

/-- The same declarations in reverse, when all of them stand directly in `outer`. -/
theorem reverse (h : Nested path outer lo hi ds) (hparents : ∀ d ∈ ds, d.parent = outer) :
    Nested path outer lo hi ds.reverse where
  within d hd := h.within d (List.mem_reverse.mp hd)
  distinct := List.pairwise_reverse.mpr (h.distinct.imp Ne.symm)
  parents := by
    intro before after d hds
    refine .inl (hparents d (List.mem_reverse.mp ?_))
    rw [hds]
    exact List.mem_append_right before List.mem_cons_self

theorem singleton {span : Span} (hd : d.WrittenOn path span) (hspan : span.start.byte < span.stop)
    (hparent : d.parent = outer) : Nested path outer span.start.byte span.stop [d] where
  within d' hd' := by
    rw [List.mem_singleton.mp hd', hd.id_eq]
    exact ⟨rfl, hd.file_eq, le_rfl, hspan, le_rfl⟩
  distinct := List.pairwise_singleton _ d
  parents := by
    intro before after d' h
    have hmem : d' ∈ [d] := h ▸ List.mem_append_right before List.mem_cons_self
    exact .inl (List.mem_singleton.mp hmem ▸ hparent)

/-- A declaration and then those inside it. -/
theorem cons {span : Span} (hd : d.WrittenOn path span) (hspan : span.start.byte < span.stop)
    (hparent : d.parent = outer) (h : Nested path (some d.id) span.start.byte span.stop ds)
    (hinside : ∀ x ∈ ds, d.id.Encloses x.id) :
    Nested path outer span.start.byte span.stop (d :: ds) where
  within x hx := by
    rcases List.mem_cons.mp hx with rfl | hx
    · exact (singleton hd hspan hparent).within x (List.mem_singleton_self x)
    · exact h.within x hx
  distinct := by
    refine .cons (fun x hx hdx => ?_) h.distinct
    have hproper := (hinside x hx).proper
    rw [hdx] at hproper
    exact hproper.elim (lt_irrefl _) (lt_irrefl _)
  parents := by
    intro before after x hds
    cases before with
    | nil =>
      obtain ⟨rfl, -⟩ := List.cons.inj hds
      exact .inl hparent
    | cons d' before =>
      obtain ⟨rfl, htail⟩ := List.cons.inj hds
      have hx : x ∈ ds := htail ▸ List.mem_append_right before List.mem_cons_self
      -- what stood in no earlier one of `ds` stands in `d` now
      rcases h.parents htail with hx' | ⟨e, he, hx'⟩
      · exact .inr ⟨d, List.mem_cons_self, hx', hinside x hx⟩
      · exact .inr ⟨e, List.mem_cons_of_mem d he, hx'⟩

/-- A declaration and then those that stand in the same one as it does, on a part of its range. -/
theorem cons_beside {span : Span} (hd : d.WrittenOn path span) (hspan : span.start.byte < span.stop)
    (hparent : d.parent = outer) (h : Nested path outer span.start.byte span.stop ds)
    (hinside : ∀ x ∈ ds, d.id.Encloses x.id) :
    Nested path outer span.start.byte span.stop (d :: ds) := by
  refine (singleton hd hspan hparent).append h fun a ha x hx hax => ?_
  have hproper := (hinside x hx).proper
  rw [← List.mem_singleton.mp ha, hax] at hproper
  exact hproper.elim (lt_irrefl _) (lt_irrefl _)

/-! ## Declarations in the parts of a node -/

section Parts

variable {κ : Type} {forest : List (Tree κ)} {f : Tree κ → List Declaration} {p : Tree κ → Bool}

/-- What the nodes of a forest declare, each on its own range. -/
theorem flatMap (hforest : PlacedIn lo hi forest)
    (hf : ∀ t ∈ forest, Nested path outer t.span.start.byte t.span.stop (f t)) :
    Nested path outer lo hi (forest.flatMap f) := by
  induction forest generalizing lo with
  | nil => exact nil
  | cons t forest ih =>
    obtain ⟨hlo, hne, hrest⟩ := hforest.inOrder
    have ht := hf t List.mem_cons_self
    have hrest' := ih hforest.tail fun u hu => hf u (List.mem_cons_of_mem t hu)
    rw [List.flatMap_cons]
    exact (ht.mono hlo le_rfl).append_of_le hrest' (hlo.trans hne.le) hrest.le

/-- What some of the nodes of a forest declare. -/
theorem select (hforest : PlacedIn lo hi forest)
    (hf : ∀ t ∈ forest, p t = true → Nested path outer t.span.start.byte t.span.stop (f t)) :
    Nested path outer lo hi (forest.flatMap fun t => if p t then f t else []) := by
  refine flatMap hforest fun t ht => ?_
  split
  · next hp => exact hf t ht hp
  · exact nil

variable {t u v x : Tree κ}

/-- A declaration on a node encloses what a part of the node declares, if the node has another
part. -/
theorem encloses {x : Declaration} (h : Nested path outer u.span.start.byte u.span.stop ds)
    (hd : d.WrittenOn path t.span) (ht : t.Placed) (hu : u ∈ t.parts) (hv : v ∈ t.parts)
    (hne : u ≠ v) (hx : x ∈ ds) : d.id.Encloses x.id := by
  obtain ⟨hfile, -, hstart, -, hstop⟩ := h.within x hx
  obtain ⟨htstart, htstop, hproper⟩ := ht.inside hu hv hne
  rw [hd.id_eq]
  exact ⟨by rw [hfile], htstart.trans hstart, hstop.trans htstop,
    hproper.imp (fun hlt => hlt.trans_le hstart) fun hlt => hstop.trans_lt hlt⟩

/-- Different nodes declare different things. -/
theorem id_ne {outer' : Option DeclarationId} {a b : Declaration} (hforest : PlacedIn lo hi forest)
    (hu : u ∈ forest) (hv : v ∈ forest) (hne : u ≠ v)
    (has : Nested path outer u.span.start.byte u.span.stop as)
    (hbs : Nested path outer' v.span.start.byte v.span.stop bs) (ha : a ∈ as) (hb : b ∈ bs) :
    a.id ≠ b.id := by
  intro hab
  obtain ⟨-, -, hastart, hane, hastop⟩ := has.within a ha
  obtain ⟨-, -, hbstart, hbne, hbstop⟩ := hbs.within b hb
  rw [hab] at hastart hane hastop
  rcases hforest.apart hu hv hne with hbefore | hafter
  · exact lt_irrefl _ (hane.trans_le (hastop.trans (hbefore.trans hbstart)))
  · exact lt_irrefl _ (hbne.trans_le (hbstop.trans (hafter.trans hastart)))

/-- The same of what some of its parts declare. -/
theorem encloses_select {x : Declaration} (hd : d.WrittenOn path t.span) (ht : t.Placed)
    (hv : v ∈ t.parts) (hpv : p v = false)
    (hf : ∀ u ∈ t.parts, p u = true → Nested path outer u.span.start.byte u.span.stop (f u))
    (hx : x ∈ t.parts.flatMap fun u => if p u then f u else []) : d.id.Encloses x.id := by
  obtain ⟨u, hu, hx⟩ := List.mem_flatMap.mp hx
  split at hx
  · next hpu =>
    have hne : u ≠ v := by
      rintro rfl
      rw [hpu] at hpv
      cases hpv
    exact (hf u hu hpu).encloses hd ht hu hv hne hx
  · cases hx

/-- A declaration on a node, and then those in some of its parts. -/
theorem cons_select (hd : d.WrittenOn path t.span) (ht : t.Placed)
    (hspan : t.span.start.byte < t.span.stop) (hparent : d.parent = outer) (hv : v ∈ t.parts)
    (hpv : p v = false)
    (hf : ∀ u ∈ t.parts, p u = true → Nested path (some d.id) u.span.start.byte u.span.stop (f u)) :
    Nested path outer t.span.start.byte t.span.stop
      (d :: t.parts.flatMap fun u => if p u then f u else []) :=
  cons hd hspan hparent (select ht.placedIn_parts hf) fun _ =>
    encloses_select hd ht hv hpv hf

/-- A declaration on a node, and then those in some of its parts that stand beside it. -/
theorem cons_beside_select (hd : d.WrittenOn path t.span) (ht : t.Placed)
    (hspan : t.span.start.byte < t.span.stop) (hparent : d.parent = outer) (hv : v ∈ t.parts)
    (hpv : p v = false)
    (hf : ∀ u ∈ t.parts, p u = true → Nested path outer u.span.start.byte u.span.stop (f u)) :
    Nested path outer t.span.start.byte t.span.stop
      (d :: t.parts.flatMap fun u => if p u then f u else []) :=
  cons_beside hd hspan hparent (select ht.placedIn_parts hf) fun _ =>
    encloses_select hd ht hv hpv hf

/-- A declaration on a node, then those in one of its parts, and then those in some others. -/
theorem cons_part_select (hd : d.WrittenOn path t.span) (ht : t.Placed)
    (hspan : t.span.start.byte < t.span.stop) (hparent : d.parent = outer) (hv : v ∈ t.parts)
    (hpv : p v = false) (hx : x ∈ t.parts) (hpx : p x = false) (hne : x ≠ v)
    (has : Nested path (some d.id) x.span.start.byte x.span.stop as)
    (hf : ∀ u ∈ t.parts, p u = true → Nested path (some d.id) u.span.start.byte u.span.stop (f u)) :
    Nested path outer t.span.start.byte t.span.stop
      (d :: (as ++ t.parts.flatMap fun u => if p u then f u else [])) := by
  obtain ⟨hlo, -, hhi⟩ := ht.placedIn_parts.mem hx
  refine .cons hd hspan hparent
    (.append (has.mono hlo hhi) (select ht.placedIn_parts hf) fun a ha b hb => ?_) fun b hb => ?_
  · -- the part of `as` is not selected, so the others are different parts
    obtain ⟨u, hu, hb⟩ := List.mem_flatMap.mp hb
    split at hb
    · next hpu =>
      have hxu : x ≠ u := by
        rintro rfl
        rw [hpx] at hpu
        cases hpu
      exact id_ne ht.placedIn_parts hx hu hxu has (hf u hu hpu) ha hb
    · cases hb
  · rcases List.mem_append.mp hb with hb | hb
    · exact has.encloses hd ht hx hv hne hb
    · exact encloses_select hd ht hv hpv hf hb

end Parts

end Nested

theorem Harvest.declarations_append (a b : Harvest) :
    (a ++ b).declarations = a.declarations ++ b.declarations := rfl

theorem Harvest.calls_append (a b : Harvest) : (a ++ b).calls = a.calls ++ b.calls := rfl

/-- One of the lists that a visit collects. -/
structure Harvest.Yield (α : Type) where
  of : Harvest → List α
  of_empty : of {} = []
  of_append : ∀ a b, of (a ++ b) = of a ++ of b

/-- The declarations that a visit collects. -/
def Harvest.declared : Harvest.Yield Declaration :=
  ⟨Harvest.declarations, rfl, Harvest.declarations_append⟩

/-- The calls that a visit collects. -/
def Harvest.called : Harvest.Yield Call := ⟨Harvest.calls, rfl, Harvest.calls_append⟩

end AdLint
