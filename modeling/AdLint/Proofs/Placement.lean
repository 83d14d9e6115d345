import AdLint.Source.Tree
import Mathlib.Data.List.Pairwise
import Mathlib.Order.Nat

/-!
# Where the tokens and the nodes of a text lie

The tokens of a text and the comments between them follow one another, and none of them is empty. A
tree keeps this on every level: the parts of a node follow one another inside its span. A node gets
its span from its first and its last part, so this holds of a phrase as soon as it holds of the
forest that the phrase is made of.

## Main definitions

* `Span.InOrder lo hi spans`: the spans follow one another between two bytes, none of them empty
* `Token.InOrder lo ts`: the same of tokens with the comments before them, from a byte on
* `Tree.Placed t`: on every level of `t`, the parts of a node follow one another inside it
* `Tree.PlacedIn lo hi forest`: the nodes of a forest are placed and follow one another

## Main results

* `Tree.PlacedIn.phrase`, `Tree.PlacedIn.labelled`, `Tree.PlacedIn.leaf`: what a reader makes of a
  placed forest is placed
* `Tree.PlacedIn.apart`, `Tree.Placed.inside`: two parts of a node share no byte, so neither of them
  is the whole node
* `Lexicon.inOrder_tokens`: a lexicon that takes a character for every token and comment cuts a text
  into tokens in order
-/

namespace AdLint

variable {lo hi mid : Nat}

/-! ## Spans in order -/

namespace Span

/-- One of two spans ends before the other starts. -/
def Apart (s t : Span) : Prop := s.stop ≤ t.start.byte ∨ t.stop ≤ s.start.byte

theorem Apart.symm {s t : Span} (h : s.Apart t) : t.Apart s := Or.symm h

/-- A span lies in another one and is not all of it. -/
def Inside (s t : Span) : Prop :=
  t.start.byte ≤ s.start.byte ∧ s.stop ≤ t.stop ∧ (t.start.byte < s.start.byte ∨ s.stop < t.stop)

/-- Spans follow one another between two bytes, none of them empty. -/
def InOrder : Nat → Nat → List Span → Prop
  | lo, hi, [] => lo ≤ hi
  | lo, hi, s :: ss => lo ≤ s.start.byte ∧ s.start.byte < s.stop ∧ InOrder s.stop hi ss

namespace InOrder

variable {s t : Span} {ss ts : List Span}

theorem le (h : InOrder lo hi ss) : lo ≤ hi := by
  induction ss generalizing lo with
  | nil => exact h
  | cons s ss ih =>
    obtain ⟨hlo, hs, hss⟩ := h
    exact hlo.trans (hs.le.trans (ih hss))

theorem mono {lo' hi' : Nat} (h : InOrder lo hi ss) (hlo : lo' ≤ lo) (hhi : hi ≤ hi') :
    InOrder lo' hi' ss := by
  induction ss generalizing lo lo' with
  | nil => exact hlo.trans (h.trans hhi)
  | cons s ss ih =>
    obtain ⟨hs, hne, hss⟩ := h
    exact ⟨hlo.trans hs, hne, ih hss le_rfl⟩

theorem append (hs : InOrder lo mid ss) (ht : InOrder mid hi ts) : InOrder lo hi (ss ++ ts) := by
  induction ss generalizing lo with
  | nil => exact ht.mono hs le_rfl
  | cons s ss ih =>
    obtain ⟨hlo, hne, hss⟩ := hs
    exact ⟨hlo, hne, ih hss⟩

theorem split (h : InOrder lo hi (ss ++ ts)) : ∃ mid, InOrder lo mid ss ∧ InOrder mid hi ts := by
  induction ss generalizing lo with
  | nil => exact ⟨lo, le_refl lo, h⟩
  | cons s ss ih =>
    obtain ⟨hlo, hne, hss⟩ := h
    obtain ⟨mid, hss, hts⟩ := ih hss
    exact ⟨mid, ⟨hlo, hne, hss⟩, hts⟩

theorem mem (h : InOrder lo hi ss) (hs : s ∈ ss) :
    lo ≤ s.start.byte ∧ s.start.byte < s.stop ∧ s.stop ≤ hi := by
  induction ss generalizing lo with
  | nil => exact absurd hs (by simp)
  | cons t ss ih =>
    obtain ⟨hlo, hne, hss⟩ := h
    rcases List.mem_cons.mp hs with rfl | hs
    · exact ⟨hlo, hne, hss.le⟩
    · obtain ⟨hstart, hrest⟩ := ih hss hs
      exact ⟨hlo.trans (hne.le.trans hstart), hrest⟩

/-- The spans before a byte end where the last of them does. -/
theorem upTo_getLast (h : InOrder lo hi ss) (hne : ss ≠ []) :
    InOrder lo (ss.getLast hne).stop ss := by
  induction ss generalizing lo with
  | nil => exact absurd rfl hne
  | cons s ss ih =>
    obtain ⟨hlo, hs, hss⟩ := h
    by_cases hnil : ss = []
    · subst hnil
      exact ⟨hlo, hs, le_refl _⟩
    · rw [List.getLast_cons hnil]
      exact ⟨hlo, hs, ih hss hnil⟩

/-- A span ends before every later one starts. -/
theorem pairwise (h : InOrder lo hi ss) : ss.Pairwise fun s t => s.stop ≤ t.start.byte := by
  induction ss generalizing lo with
  | nil => exact .nil
  | cons s ss ih =>
    obtain ⟨-, -, hss⟩ := h
    exact .cons (fun t ht => (hss.mem ht).1) (ih hss)

end InOrder

end Span

/-! ## Tokens in order -/

namespace Place

theorem byte_lt_advance (p : Place) (c : Char) : p.byte < (p.advance c).byte := by
  rw [advance]
  split
  · exact Nat.lt_succ_self p.byte
  · exact Nat.lt_add_of_pos_right c.utf8Size_pos

theorem byte_le_advanceAll (p : Place) (cs : List Char) : p.byte ≤ (p.advanceAll cs).byte := by
  induction cs generalizing p with
  | nil => exact le_refl p.byte
  | cons c cs ih => exact (p.byte_lt_advance c).le.trans (ih (p.advance c))

theorem byte_lt_advanceAll (p : Place) {cs : List Char} (hcs : cs ≠ []) :
    p.byte < (p.advanceAll cs).byte := by
  obtain ⟨c, cs, rfl⟩ := List.exists_cons_of_ne_nil hcs
  exact (p.byte_lt_advance c).trans_le ((p.advance c).byte_le_advanceAll cs)

end Place

/-- Tokens and the comments before them follow one another from a byte on, none of them empty. -/
def Token.InOrder : Nat → List Token → Prop
  | _, [] => True
  | lo, t :: ts => Span.InOrder lo t.span.stop (t.comments ++ [t.span]) ∧ InOrder t.span.stop ts

/-- A comment or a token takes a character. -/
def Lexeme.Takes : Lexeme → Prop
  | .blank => True
  | .comment cs => cs ≠ []
  | .token _ cs => cs ≠ []

theorem Lexeme.takes_ite {c : Prop} [Decidable c] {a b : Lexeme} (ha : c → a.Takes)
    (hb : ¬c → b.Takes) : (if c then a else b).Takes := by
  split
  · exact ha ‹c›
  · exact hb ‹¬c›

namespace Scan

theorem lineComment_ne_nil {c : Char} {cs : List Char} (hc : c ≠ '\n') :
    lineComment (c :: cs) ≠ [] := by
  simp [lineComment, hc]

theorem mark_ne_nil {marks : List String} (hmarks : ∀ m ∈ marks, m.toList ≠ []) (c : Char)
    (cs : List Char) : mark marks (c :: cs) ≠ [] := by
  rw [mark]
  split
  · next m hm => exact hmarks m (List.mem_of_find?_eq_some hm)
  · simp

end Scan

namespace Lexicon

variable {σ : Type} {l : Lexicon σ}

/-- The tokens of a scan follow the comments that the gap before them holds. -/
theorem inOrder_scan (hl : ∀ state c cs, (l.next state c cs).1.Takes) (n : Nat) (state : σ)
    {place : Place} {gap : Gap} (hgap : Span.InOrder lo place.byte gap.comments) (cs : List Char) :
    Token.InOrder lo (l.scan n state place gap cs) := by
  induction n generalizing lo state place gap cs with
  | zero => trivial
  | succ n ih =>
    cases cs with
    | nil => trivial
    | cons c cs =>
      have htakes := hl state c cs
      rw [scan]
      -- a blank moves the place, a comment goes into the gap, and a token ends the gap
      split
      · have hblank : Span.InOrder lo (place.advance c).byte (gap.blank c).comments :=
          hgap.mono le_rfl (place.byte_lt_advance c).le
        exact ih _ hblank _
      · next taken _ hnext =>
        rw [hnext] at htakes
        have hstop := place.byte_lt_advanceAll htakes
        have hcomments : Span.InOrder lo (place.advanceAll taken).byte
            (gap.comment ⟨place, (place.advanceAll taken).byte⟩).comments :=
          hgap.append ⟨le_rfl, hstop, le_refl _⟩
        exact ih _ hcomments _
      · next kind taken _ hnext =>
        rw [hnext] at htakes
        have hstop := place.byte_lt_advanceAll htakes
        exact ⟨hgap.append ⟨le_rfl, hstop, le_refl _⟩, ih _ (le_refl _) _⟩

/-- **A text is cut into tokens in order.** -/
theorem inOrder_tokens (hl : ∀ state c cs, (l.next state c cs).1.Takes) (text : String) :
    Token.InOrder 0 (l.tokens text) :=
  inOrder_scan hl _ _ (le_refl 0) _

end Lexicon

/-! ## Placed trees -/

namespace Tree

variable {κ : Type}

/-- On every level of a tree, the parts of a node follow one another inside its span. -/
inductive Placed : Tree κ → Prop
  | node {kind : κ} {role : Role} {span : Span} {parts : List (Tree κ)}
      (inOrder : Span.InOrder span.start.byte span.stop (parts.map Tree.span))
      (placed : ∀ t ∈ parts, t.Placed) : Placed (.node kind role span parts)

theorem Placed.inRole {t : Tree κ} (h : t.Placed) (role : Role) : (t.inRole role).Placed := by
  obtain ⟨hspans, hparts⟩ := h
  exact .node hspans hparts

theorem span_inRole (t : Tree κ) (role : Role) : (t.inRole role).span = t.span := by
  cases t
  rfl

theorem placed_of_parts_eq_nil {t : Tree κ} (hparts : t.parts = [])
    (hspan : t.span.start.byte ≤ t.span.stop) : t.Placed := by
  obtain ⟨kind, role, span, parts⟩ := t
  subst hparts
  exact .node hspan (by simp)

/-- The nodes of a forest are placed and follow one another between two bytes. -/
structure PlacedIn (lo hi : Nat) (forest : List (Tree κ)) : Prop where
  inOrder : Span.InOrder lo hi (forest.map Tree.span)
  placed : ∀ t ∈ forest, t.Placed

namespace PlacedIn

variable {xs ys : List (Tree κ)}

theorem nil (h : lo ≤ hi) : PlacedIn lo hi ([] : List (Tree κ)) := ⟨h, by simp⟩

theorem le (h : PlacedIn lo hi xs) : lo ≤ hi := h.inOrder.le

theorem mono {lo' hi' : Nat} (h : PlacedIn lo hi xs) (hlo : lo' ≤ lo) (hhi : hi ≤ hi') :
    PlacedIn lo' hi' xs :=
  ⟨h.inOrder.mono hlo hhi, h.placed⟩

theorem append (hx : PlacedIn lo mid xs) (hy : PlacedIn mid hi ys) : PlacedIn lo hi (xs ++ ys) := by
  refine ⟨?_, fun t ht => ?_⟩
  · rw [List.map_append]
    exact hx.inOrder.append hy.inOrder
  · rcases List.mem_append.mp ht with ht | ht
    · exact hx.placed t ht
    · exact hy.placed t ht

theorem split (h : PlacedIn lo hi (xs ++ ys)) : ∃ mid, PlacedIn lo mid xs ∧ PlacedIn mid hi ys := by
  have hspans := h.inOrder
  rw [List.map_append] at hspans
  obtain ⟨mid, hx, hy⟩ := hspans.split
  exact ⟨mid, ⟨hx, fun t ht => h.placed t (List.mem_append_left ys ht)⟩,
    ⟨hy, fun t ht => h.placed t (List.mem_append_right xs ht)⟩⟩

theorem mem {t : Tree κ} (h : PlacedIn lo hi xs) (ht : t ∈ xs) :
    lo ≤ t.span.start.byte ∧ t.span.start.byte < t.span.stop ∧ t.span.stop ≤ hi :=
  h.inOrder.mem (List.mem_map_of_mem ht)

theorem tail {t : Tree κ} (h : PlacedIn lo hi (t :: xs)) : PlacedIn t.span.stop hi xs :=
  ⟨h.inOrder.2.2, fun u hu => h.placed u (List.mem_cons_of_mem t hu)⟩

/-- Different nodes are apart. -/
theorem apart {t u : Tree κ} (h : PlacedIn lo hi xs) (ht : t ∈ xs) (hu : u ∈ xs) (hne : t ≠ u) :
    t.span.Apart u.span := by
  have hspans : xs.Pairwise fun t u => t.span.Apart u.span :=
    List.pairwise_map.mp (h.inOrder.pairwise.imp Or.inl)
  have hsymm : Std.Symm fun t u : Tree κ => t.span.Apart u.span := ⟨fun _ _ => Span.Apart.symm⟩
  exact hspans.forall ht hu hne

/-- Forests inside the nodes of a placed forest, in the order of the nodes. -/
theorem flatMap {f : Tree κ → List (Tree κ)} (h : PlacedIn lo hi xs)
    (hf : ∀ t ∈ xs, PlacedIn t.span.start.byte t.span.stop (f t)) :
    PlacedIn lo hi (xs.flatMap f) := by
  induction xs generalizing lo with
  | nil => exact .nil h.le
  | cons t xs ih =>
    rw [List.flatMap_cons]
    exact ((hf t List.mem_cons_self).mono h.inOrder.1 le_rfl).append
      (ih h.tail fun u hu => hf u (List.mem_cons_of_mem t hu))

/-- The node that runs from the first of some placed nodes to the last is placed. -/
theorem singleton_node [NodeKind κ] {first : Tree κ} {rest : List (Tree κ)} (kind : κ)
    (h : PlacedIn lo hi (first :: rest)) :
    PlacedIn lo hi [.node kind .plain (spanOf first rest) (first :: rest)] := by
  have hne : first :: rest ≠ [] := List.cons_ne_nil first rest
  have hstop : (spanOf first rest).stop = ((first :: rest).getLast hne).span.stop := by
    rw [spanOf, List.getLast?_eq_some_getLast hne, Option.getD_some]
  have hhi := (h.mem (List.getLast_mem hne)).2.2
  -- the bound behind the parts is tightened to the end of the last one
  obtain ⟨hlo, hfirst, hrest⟩ := h.inOrder.upTo_getLast (by simp)
  rw [List.getLast_map, ← hstop] at hrest
  refine ⟨⟨hlo, hfirst.trans_le hrest.le, hstop ▸ hhi⟩, fun t ht => ?_⟩
  rw [List.mem_singleton.mp ht]
  exact .node ⟨le_refl _, hfirst, hrest⟩ h.placed

/-- The phrase made of a placed forest is placed. -/
theorem phrase [NodeKind κ] (h : PlacedIn lo hi xs) (kind : κ) :
    PlacedIn lo hi (Tree.phrase kind xs) := by
  have hsplit : PlacedIn lo hi (xs.takeWhile isComment ++ xs.dropWhile isComment) := by
    rw [List.takeWhile_append_dropWhile]
    exact h
  obtain ⟨mid, hcomments, hrest⟩ := hsplit.split
  rw [Tree.phrase]
  -- comments at the front stay outside, and without anything else there is no phrase
  cases hxs : xs.dropWhile isComment with
  | nil => exact hcomments.mono le_rfl hrest.le
  | cons first rest =>
    rw [hxs] at hrest
    exact hcomments.append (hrest.singleton_node kind)

/-- A placed forest with its last node in another role is placed. -/
theorem labelled [NodeKind κ] (h : PlacedIn lo hi xs) (role : Role) :
    PlacedIn lo hi (Tree.labelled role xs) := by
  -- a role moves no span
  have hspans : (Tree.labelled role xs).map Tree.span = xs.map Tree.span := by
    refine List.ext_getElem (by simp [Tree.labelled]) fun i _ _ => ?_
    simp only [Tree.labelled, List.getElem_map, List.getElem_mapIdx]
    split
    · exact span_inRole _ role
    · rfl
  refine ⟨hspans ▸ h.inOrder, fun t ht => ?_⟩
  obtain ⟨i, hi, rfl⟩ := List.mem_mapIdx.mp ht
  split
  · exact (h.placed _ (List.getElem_mem hi)).inRole role
  · exact h.placed _ (List.getElem_mem hi)

/-- The leaf of a token with the comments before it is placed. -/
theorem leaf [NodeKind κ] {t : Token} (kind : κ)
    (h : Span.InOrder lo t.span.stop (t.comments ++ [t.span])) :
    PlacedIn lo t.span.stop (Tree.leaf kind t) := by
  have hspans : (Tree.leaf kind t).map Tree.span = t.comments ++ [t.span] := by
    simp [Tree.leaf, Tree.span, Function.comp_def]
  refine ⟨hspans ▸ h, fun u hu => ?_⟩
  have hspan : u.span ∈ t.comments ++ [t.span] := hspans ▸ List.mem_map_of_mem hu
  have hparts : u.parts = [] := by
    rcases List.mem_append.mp hu with hu | hu
    · obtain ⟨span, -, rfl⟩ := List.mem_map.mp hu
      rfl
    · rw [List.mem_singleton.mp hu, parts]
  exact placed_of_parts_eq_nil hparts (h.mem hspan).2.1.le

end PlacedIn

theorem Placed.placedIn_parts {t : Tree κ} (h : t.Placed) :
    PlacedIn t.span.start.byte t.span.stop t.parts := by
  obtain ⟨hspans, hparts⟩ := h
  exact ⟨hspans, hparts⟩

/-- A node with two parts is more than either of them. -/
theorem Placed.inside {t u v : Tree κ} (h : t.Placed) (hu : u ∈ t.parts) (hv : v ∈ t.parts)
    (hne : u ≠ v) : u.span.Inside t.span := by
  obtain ⟨hustart, hu', hustop⟩ := h.placedIn_parts.mem hu
  obtain ⟨hvstart, hv', hvstop⟩ := h.placedIn_parts.mem hv
  refine ⟨hustart, hustop, ?_⟩
  -- `v` has a byte, and it lies behind `u` or before it
  rcases h.placedIn_parts.apart hu hv hne with hbefore | hafter
  · exact .inr (hbefore.trans_lt (hv'.trans_le hvstop))
  · exact .inl (hvstart.trans_lt (hv'.trans_le hafter))

end Tree

end AdLint
