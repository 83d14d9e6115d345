import AdLint.Source.Chain
import Mathlib.Data.List.TakeWhile

/-!
# Readers that keep promises about their nodes

A grammar promises more of its trees than the type of trees does: a call has a name and arguments, a
body is a block, a node starts where a token does. Such a promise is about single nodes. It is given
by what a node of each kind needs among its parts, by the kinds that roles are reserved for, and by
where nodes can start. Most kinds need nothing and most roles are reserved for none, so most rules
of a grammar keep a promise whatever it is. The facts about it are instances: a rule keeps the
promise by inference, from its own text and the rules that it refers to.

For the other rules it must be known what stands in the forest that a phrase is made of.
`Reader.Yields` says so: that the forest has a node that is no comment, in which kind it ends, or
that it holds what a node needs.

## Main definitions

* `Tree.Every P t`: every node of `t` has the property `P`
* `Promise`: what is promised of nodes
* `Reader.Keeps P r`: every node that `r` makes is as promised
* `Reader.Yields Q r`: every forest that `r` makes has the property `Q`

## Main results

* `Reader.keeps_fix`: readers that refer to one another through rules that keep a promise keep it
* `Reader.everyIn_run`: what a reader that keeps a promise makes of a text is as promised
-/

namespace AdLint

variable {κ : Type}

/-! ## Properties of all nodes of a tree -/

/-- A property of nodes, by their kind, role, span and parts. -/
abbrev NodeProperty (κ : Type) := κ → Role → Span → List (Tree κ) → Prop

namespace Tree

/-- Every node of a tree has a property. -/
inductive Every (P : NodeProperty κ) : Tree κ → Prop
  | node {kind : κ} {role : Role} {span : Span} {parts : List (Tree κ)}
      (here : P kind role span parts) (inside : ∀ t ∈ parts, t.Every P) :
      Every P (.node kind role span parts)

/-- Every node of a forest has a property. -/
def EveryIn (P : NodeProperty κ) (forest : List (Tree κ)) : Prop := ∀ t ∈ forest, t.Every P

section Every

variable {P : NodeProperty κ} {t : Tree κ} {xs ys : List (Tree κ)}

theorem Every.here (h : t.Every P) : P t.kind t.role t.span t.parts := by
  obtain ⟨hnode, -⟩ := h
  exact hnode

theorem Every.inside (h : t.Every P) : EveryIn P t.parts := by
  obtain ⟨-, hparts⟩ := h
  exact hparts

theorem EveryIn.nil : EveryIn P [] := by simp [EveryIn]

theorem EveryIn.append (hx : EveryIn P xs) (hy : EveryIn P ys) : EveryIn P (xs ++ ys) := by
  intro t ht
  rcases List.mem_append.mp ht with ht | ht
  · exact hx t ht
  · exact hy t ht

theorem EveryIn.sublist (hy : EveryIn P ys) (h : xs.Sublist ys) : EveryIn P xs :=
  fun t ht => hy t (h.subset ht)

end Every

end Tree

/-! ## Promises -/

/-- Something that a node needs among its parts. -/
inductive Need (κ : Type) where
  | role (role : Role)
  | kind (kind : κ)

/-- Whether a part is what is needed. -/
def Need.MetBy : Need κ → Tree κ → Prop
  | role r, t => t.role = r
  | kind k, t => t.kind = k

/-- What is promised of the nodes of a tree. -/
structure Promise (κ : Type) [NodeKind κ] where
  /-- What a node of each kind has among its parts. -/
  needs : κ → List (Need κ)
  /-- The kind that a role is reserved for. -/
  reserves : Role → Option κ
  /-- Where nodes can start. -/
  starts : Place → Prop
  needs_comment : needs NodeKind.comment = []
  needs_token : needs NodeKind.token = []
  reserves_plain : reserves .plain = none

/-- A node is as promised. -/
structure Promise.Met [NodeKind κ] (P : Promise κ) (kind : κ) (role : Role) (span : Span)
    (parts : List (Tree κ)) : Prop where
  start : P.starts span.start
  reserved : ∀ k, P.reserves role = some k → kind = k
  needed : ∀ need ∈ P.needs kind, ∃ t ∈ parts, need.MetBy t

/-- A token and the comments before it start where nodes can start. -/
def Promise.Allows [NodeKind κ] (P : Promise κ) (t : Token) : Prop :=
  P.starts t.span.start ∧ ∀ span ∈ t.comments, P.starts span.start

namespace Tree

variable [NodeKind κ] {kind : κ} {role : Role} {t : Tree κ} {xs ys : Forest κ}

/-! ## Forests made by phrases, roles and leaves -/

/-- What stands in the phrase made of a forest: a comment before it, or the phrase itself. -/
theorem mem_phrase (h : t ∈ phrase kind xs) :
    t ∈ xs ∨ ∃ first rest, xs.dropWhile isComment = first :: rest ∧
      t = .node kind .plain (spanOf first rest) (first :: rest) := by
  rw [phrase] at h
  split at h
  · exact .inl ((List.takeWhile_sublist _).subset h)
  · next first rest hrest =>
    rcases List.mem_append.mp h with h | h
    · exact .inl ((List.takeWhile_sublist _).subset h)
    · exact .inr ⟨first, rest, hrest, List.mem_singleton.mp h⟩

omit [NodeKind κ] in
theorem labelled_concat (role : Role) (xs : Forest κ) (t : Tree κ) :
    labelled role (xs ++ [t]) = xs ++ [t.inRole role] := by
  refine List.ext_getElem (by simp [labelled]) fun i hi _ => ?_
  have hlength : i < xs.length + 1 := by simpa [labelled] using hi
  simp only [labelled, List.getElem_mapIdx, List.length_append, List.length_singleton,
    Nat.add_right_cancel_iff, beq_iff_eq]
  -- the last place is the only one that gets the role
  split
  · next h => simp [h]
  · next h => rw [List.getElem_append_left (by omega), List.getElem_append_left (by omega)]

omit [NodeKind κ] in
theorem mem_labelled (h : t ∈ labelled role xs) :
    t ∈ xs ∨ ∃ ys u, xs = ys ++ [u] ∧ t = u.inRole role := by
  rcases List.eq_nil_or_concat xs with rfl | ⟨ys, u, rfl⟩
  · simp [labelled] at h
  · rw [List.concat_eq_append, labelled_concat, List.mem_append, List.mem_singleton] at h
    rcases h with h | h
    · exact .inl (by simp [h])
    · exact .inr ⟨ys, u, List.concat_eq_append, h⟩

theorem mem_leaf {token : Token} (h : t ∈ leaf kind token) :
    (∃ span ∈ token.comments, t = .node NodeKind.comment .plain span []) ∨
      t = .node kind .plain token.span [] := by
  rcases List.mem_append.mp h with h | h
  · obtain ⟨span, hspan, rfl⟩ := List.mem_map.mp h
    exact .inl ⟨span, hspan, rfl⟩
  · exact .inr (List.mem_singleton.mp h)

/-- A node that is no comment is kept when the comments at the front are dropped. -/
theorem mem_dropWhile_isComment (ht : t ∈ xs) (hcomment : t.isComment = false) :
    t ∈ xs.dropWhile isComment := by
  rw [← List.takeWhile_append_dropWhile (p := isComment) (l := xs), List.mem_append] at ht
  refine ht.resolve_left fun hfront => ?_
  rw [List.mem_takeWhile_imp hfront] at hcomment
  cases hcomment

@[simp] theorem isComment_inRole (t : Tree κ) (role : Role) :
    (t.inRole role).isComment = t.isComment := by
  cases t
  rfl

/-- Some node of the forest is no comment. -/
def Solid (xs : Forest κ) : Prop := ∃ t ∈ xs, t.isComment = false

/-- The forest ends in a node that is no comment. -/
def Firm (xs : Forest κ) : Prop := ∃ ys t, xs = ys ++ [t] ∧ t.isComment = false

/-- The forest ends in a node of a kind. -/
def EndsIn (kind : κ) (xs : Forest κ) : Prop := ∃ ys t, xs = ys ++ [t] ∧ t.kind = kind

/-- The forest holds something needed that is no comment. -/
def Supplies (need : Need κ) (xs : Forest κ) : Prop := ∃ t ∈ xs, need.MetBy t ∧ t.isComment = false

/-- The forest holds all that is needed. -/
def SuppliesAll (needs : List (Need κ)) (xs : Forest κ) : Prop := ∀ need ∈ needs, Supplies need xs

theorem endsIn_phrase (h : Solid xs) : EndsIn kind (phrase kind xs) := by
  obtain ⟨t, ht, hcomment⟩ := h
  rw [phrase]
  split
  · next hnil => exact absurd (hnil ▸ mem_dropWhile_isComment ht hcomment) (by simp)
  · exact ⟨_, _, rfl, rfl⟩

omit [NodeKind κ] in
theorem EndsIn.labelled (h : EndsIn kind xs) (role : Role) : EndsIn kind (labelled role xs) := by
  obtain ⟨ys, t, rfl, hkind⟩ := h
  refine ⟨ys, t.inRole role, labelled_concat role ys t, ?_⟩
  rw [← hkind]
  cases t
  rfl

theorem EndsIn.firm (h : EndsIn kind xs) (hkind : NodeKind.isComment kind = false) : Firm xs := by
  obtain ⟨ys, t, rfl, rfl⟩ := h
  exact ⟨ys, t, rfl, hkind⟩

theorem EndsIn.supplies (h : EndsIn kind xs) (hkind : NodeKind.isComment kind = false) :
    Supplies (.kind kind) xs := by
  obtain ⟨ys, t, rfl, rfl⟩ := h
  exact ⟨t, by simp, rfl, hkind⟩

theorem Firm.solid (h : Firm xs) : Solid xs := by
  obtain ⟨ys, t, rfl, ht⟩ := h
  exact ⟨t, by simp, ht⟩

theorem Firm.labelled (h : Firm xs) (role : Role) : Firm (Tree.labelled role xs) := by
  obtain ⟨ys, t, rfl, ht⟩ := h
  exact ⟨ys, t.inRole role, labelled_concat role ys t, by rw [isComment_inRole, ht]⟩

theorem Firm.supplies (h : Firm xs) (role : Role) :
    Supplies (.role role) (Tree.labelled role xs) := by
  obtain ⟨ys, t, rfl, ht⟩ := h
  rw [labelled_concat]
  refine ⟨t.inRole role, by simp, ?_, by rw [isComment_inRole, ht]⟩
  cases t
  rfl

theorem Supplies.mono {need : Need κ} (h : Supplies need xs) (hsub : xs ⊆ ys) :
    Supplies need ys := by
  obtain ⟨t, ht, hneed⟩ := h
  exact ⟨t, hsub ht, hneed⟩

theorem SuppliesAll.mono {needs : List (Need κ)} (h : SuppliesAll needs xs) (hsub : xs ⊆ ys) :
    SuppliesAll needs ys :=
  fun need hneed => (h need hneed).mono hsub

/-- What a forest holds, the phrase made of it has among its parts. -/
theorem SuppliesAll.dropWhile {needs : List (Need κ)} (h : SuppliesAll needs xs) :
    ∀ need ∈ needs, ∃ t ∈ xs.dropWhile isComment, need.MetBy t := by
  intro need hneed
  obtain ⟨t, ht, hmet, hcomment⟩ := h need hneed
  exact ⟨t, mem_dropWhile_isComment ht hcomment, hmet⟩

end Tree

open AdLint.Tree (EveryIn Solid Firm EndsIn Supplies SuppliesAll)

namespace Promise

variable [NodeKind κ] {P : Promise κ} {kind : κ} {role : Role} {xs ys : Forest κ}

theorem everyIn_leaf (hkind : P.needs kind = []) {t : Token} (ht : P.Allows t) :
    EveryIn P.Met (Tree.leaf kind t) := by
  have hplain : ∀ {kind : κ} {span : Span}, P.needs kind = [] → P.starts span.start →
      Tree.Every P.Met (.node kind .plain span []) := fun hneeds hstart =>
    .node ⟨hstart, by simp [P.reserves_plain], by simp [hneeds]⟩ (by simp)
  intro x hx
  rcases Tree.mem_leaf hx with ⟨span, hspan, rfl⟩ | rfl
  · exact hplain P.needs_comment (ht.2 span hspan)
  · exact hplain hkind ht.1

theorem everyIn_phrase (hxs : EveryIn P.Met xs) (hneeds : SuppliesAll (P.needs kind) xs) :
    EveryIn P.Met (Tree.phrase kind xs) := by
  intro t ht
  rcases Tree.mem_phrase ht with ht | ⟨first, rest, hdrop, rfl⟩
  · exact hxs t ht
  · have hparts : EveryIn P.Met (first :: rest) := hdrop ▸ hxs.sublist (List.dropWhile_sublist _)
    -- a phrase starts where its first part does
    have hstart : P.starts first.span.start := (hparts first List.mem_cons_self).here.start
    exact .node ⟨hstart, by simp [P.reserves_plain], hdrop ▸ hneeds.dropWhile⟩ hparts

theorem everyIn_labelled (hxs : EveryIn P.Met xs)
    (hlast : ∀ ys t, xs = ys ++ [t] → ∀ k, P.reserves role = some k → t.kind = k) :
    EveryIn P.Met (Tree.labelled role xs) := by
  intro t ht
  rcases Tree.mem_labelled ht with ht | ⟨ys, u, heq, rfl⟩
  · exact hxs t ht
  · have hu := hxs u (by simp [heq])
    have hrole := hlast ys u heq
    obtain ⟨kind, role', span, parts⟩ := u
    exact .node ⟨hu.here.start, hrole, hu.here.needed⟩ hu.inside

end Promise

namespace Reader

/-! ## What stands in the forests of a reader -/

/-- Every forest that the reader makes has the property. -/
class Yields (Q : Forest κ → Prop) (r : Reader κ) : Prop where
  yields : ∀ {ts rest : List Token} {xs : Forest κ}, r.run ts = some (xs, rest) → Q xs

section Yields

variable {Q : Forest κ → Prop} {a b r : Reader κ}

instance : Yields Q (fail : Reader κ) where
  yields hrun := absurd hrun (by simp [fail])

instance {condition : List Token → Bool} [Yields Q a] [Yields Q b] :
    Yields Q (branch condition a b) where
  yields := by
    intro ts rest xs hrun
    dsimp only [branch] at hrun
    split at hrun
    · exact Yields.yields hrun
    · exact Yields.yields hrun

instance {b : Unit → Reader κ} [Yields Q a] [Yields Q (b ())] :
    Yields Q (HOrElse.hOrElse a b) where
  yields := by
    intro ts rest xs hrun
    rcases Option.or_eq_some_iff.mp hrun with ha | ⟨-, hb⟩
    · exact Yields.yields ha
    · exact Yields.yields hb

theorem yields_append (h : ∀ {ts ts' rest xs ys}, a.run ts = some (xs, ts') →
    b.run ts' = some (ys, rest) → Q (xs ++ ys)) : Yields Q (a ++ b) where
  yields := by
    intro ts rest zs hrun
    obtain ⟨⟨xs, ts'⟩, ha, hrun⟩ := Option.bind_eq_some_iff.mp hrun
    obtain ⟨⟨ys, ts''⟩, hb, hrun⟩ := Option.bind_eq_some_iff.mp hrun
    obtain ⟨rfl, rfl⟩ := Prod.mk.inj (Option.some.inj hrun)
    exact h ha hb

theorem yields_phrase [NodeKind κ] {R : Forest κ → Prop} {kind : κ} [Yields R r]
    (h : ∀ {xs}, R xs → Q (Tree.phrase kind xs)) : Yields Q (phrase kind r) where
  yields := by
    intro ts rest ys hrun
    obtain ⟨⟨xs, ts'⟩, hr, hrun⟩ := Option.map_eq_some_iff.mp hrun
    obtain ⟨rfl, rfl⟩ := Prod.mk.inj hrun
    exact h (Yields.yields hr)

theorem yields_as [NodeKind κ] {R : Forest κ → Prop} {role : Role} [Yields R r]
    (h : ∀ {xs}, R xs → Q (Tree.labelled role xs)) : Yields Q (as role r) where
  yields := by
    intro ts rest ys hrun
    obtain ⟨⟨xs, ts'⟩, hr, hrun⟩ := Option.map_eq_some_iff.mp hrun
    obtain ⟨rfl, rfl⟩ := Prod.mk.inj hrun
    exact h (Yields.yields hr)

end Yields

/-- A kind of nodes that are no comments. -/
class Substance [NodeKind κ] (kind : κ) : Prop where
  isComment_eq : NodeKind.isComment kind = false

section Substance

variable [NodeKind κ] {kind : κ} {role : Role} {a b r : Reader κ}

instance {condition : Token → Bool} : Yields (EndsIn kind) (leafIf kind condition) where
  yields := by
    intro ts rest xs hrun
    cases ts with
    | nil => cases hrun
    | cons t ts =>
      dsimp only [leafIf] at hrun
      split at hrun
      · obtain ⟨rfl, rfl⟩ := Prod.mk.inj (Option.some.inj hrun)
        exact ⟨_, _, rfl, rfl⟩
      · cases hrun

instance [Yields Solid r] : Yields (EndsIn kind) (phrase kind r) :=
  yields_phrase (R := Solid) Tree.endsIn_phrase

instance [Yields (EndsIn kind) b] : Yields (EndsIn kind) (a ++ b) :=
  yields_append fun {_ _ _ xs _} _ hb => by
    obtain ⟨zs, t, rfl, hkind⟩ : EndsIn kind _ := Yields.yields hb
    exact ⟨xs ++ zs, t, (List.append_assoc ..).symm, hkind⟩

instance [Yields (EndsIn kind) r] : Yields (EndsIn kind) (as role r) :=
  yields_as (R := EndsIn kind) fun h => h.labelled role

theorem yields_firm (kind : κ) [Substance kind] [Yields (EndsIn kind) r] : Yields Firm r where
  yields hrun := (Yields.yields hrun : EndsIn kind _).firm Substance.isComment_eq

instance {condition : Token → Bool} [Substance kind] : Yields Firm (leafIf kind condition) :=
  yields_firm kind

instance {text : String} [Substance (NodeKind.token : κ)] : Yields Firm (tok text : Reader κ) :=
  inferInstanceAs (Yields Firm (leafIf NodeKind.token fun t => t.reads text))

instance [Substance kind] [Yields Solid r] : Yields Firm (phrase kind r) := yields_firm kind

instance [Yields Firm b] : Yields Firm (a ++ b) :=
  yields_append fun {_ _ _ xs _} _ hb => by
    obtain ⟨zs, t, rfl, ht⟩ : Firm _ := Yields.yields hb
    exact ⟨xs ++ zs, t, (List.append_assoc ..).symm, ht⟩

instance [Yields Firm r] : Yields Firm (as role r) :=
  yields_as (R := Firm) fun h => h.labelled role

instance (priority := low) [Yields Firm r] : Yields Solid r where
  yields hrun := (Yields.yields hrun : Firm _).solid

instance [Yields Solid a] : Yields Solid (a ++ b) :=
  yields_append fun ha _ => by
    obtain ⟨t, ht, hcomment⟩ : Solid _ := Yields.yields ha
    exact ⟨t, List.mem_append_left _ ht, hcomment⟩

instance [Yields Solid b] : Yields Solid (a ++ b) :=
  yields_append fun _ hb => by
    obtain ⟨t, ht, hcomment⟩ : Solid _ := Yields.yields hb
    exact ⟨t, List.mem_append_right _ ht, hcomment⟩

instance [Yields Firm r] : Yields (Supplies (.role role)) (as role r) :=
  yields_as (R := Firm) fun h => h.supplies role

instance [Substance kind] [Yields Solid r] : Yields (Supplies (.kind kind)) (phrase kind r) where
  yields hrun := (Yields.yields hrun : EndsIn kind _).supplies Substance.isComment_eq

instance {need : Need κ} [Yields (Supplies need) a] : Yields (Supplies need) (a ++ b) :=
  yields_append fun ha _ =>
    (Yields.yields ha : Supplies need _).mono (List.subset_append_left _ _)

instance {need : Need κ} [Yields (Supplies need) b] : Yields (Supplies need) (a ++ b) :=
  yields_append fun _ hb =>
    (Yields.yields hb : Supplies need _).mono (List.subset_append_right _ _)

instance : Yields (SuppliesAll ([] : List (Need κ))) r where
  yields _ := by simp [SuppliesAll]

instance {need : Need κ} {needs : List (Need κ)} [Yields (Supplies need) r]
    [Yields (SuppliesAll needs) r] : Yields (SuppliesAll (need :: needs)) r where
  yields hrun := by
    have hneeds : SuppliesAll needs _ := Yields.yields hrun
    exact List.forall_mem_cons.mpr ⟨Yields.yields hrun, hneeds⟩

end Substance

/-! ## Readers that keep a promise -/

/-- Nothing is needed. -/
class Needless (needs : List (Need κ)) : Prop where
  eq_nil : needs = []

instance : Needless ([] : List (Need κ)) := ⟨rfl⟩

/-- No kind is reserved. -/
class Unreserved (o : Option κ) : Prop where
  eq_none : o = none

instance : Unreserved (none : Option κ) := ⟨rfl⟩

/-- If a kind is reserved, the forests of the reader end in it. -/
class Suits (o : Option κ) (r : Reader κ) : Prop where
  suits : ∀ {ts rest : List Token} {ys : Forest κ} {t : Tree κ}, r.run ts = some (ys ++ [t], rest) →
    ∀ k, o = some k → t.kind = k

instance {r : Reader κ} : Suits none r where
  suits _ k h := by cases h

instance {kind : κ} {r : Reader κ} [Yields (EndsIn kind) r] : Suits (some kind) r where
  suits := by
    intro ts rest ys t hrun k hk
    obtain ⟨zs, u, heq, hkind⟩ : EndsIn kind _ := Yields.yields hrun
    obtain ⟨-, hlast⟩ := List.append_inj' heq rfl
    rw [List.singleton_inj.mp hlast, hkind]
    exact Option.some.inj hk

section Keeps

variable [NodeKind κ] {P : Promise κ} {a b r : Reader κ}

/-- Of tokens as promised, the reader makes nodes as promised. -/
class Keeps (P : Promise κ) (r : Reader κ) : Prop where
  keeps : ∀ {ts rest : List Token} {xs : Forest κ}, (∀ t ∈ ts, P.Allows t) →
    r.run ts = some (xs, rest) → EveryIn P.Met xs ∧ ∀ t ∈ rest, P.Allows t

/-- All of some readers make nodes as promised. -/
class AllKeep (P : Promise κ) (readers : List (Reader κ)) : Prop where
  keeps : ∀ r ∈ readers, r.Keeps P

/-! ### Sequence, choice and repetition -/

instance : Keeps P (nothing : Reader κ) where
  keeps := by
    intro ts rest xs hts hrun
    obtain ⟨rfl, rfl⟩ := Prod.mk.inj (Option.some.inj hrun)
    exact ⟨.nil, hts⟩

instance : Keeps P (fail : Reader κ) where
  keeps := by
    intro ts rest xs hts hrun
    exact absurd hrun (by simp [fail])

instance [Keeps P a] [Keeps P b] : Keeps P (a ++ b) where
  keeps := by
    intro ts rest zs hts hrun
    obtain ⟨⟨xs, ts'⟩, ha, hrun⟩ := Option.bind_eq_some_iff.mp hrun
    obtain ⟨⟨ys, ts''⟩, hb, hrun⟩ := Option.bind_eq_some_iff.mp hrun
    obtain ⟨rfl, rfl⟩ := Prod.mk.inj (Option.some.inj hrun)
    obtain ⟨hxs, hts'⟩ := Keeps.keeps hts ha
    obtain ⟨hys, hrest⟩ := Keeps.keeps hts' hb
    exact ⟨hxs.append hys, hrest⟩

instance {b : Unit → Reader κ} [Keeps P a] [Keeps P (b ())] : Keeps P (HOrElse.hOrElse a b) where
  keeps := by
    intro ts rest xs hts hrun
    rcases Option.or_eq_some_iff.mp hrun with ha | ⟨-, hb⟩
    · exact Keeps.keeps hts ha
    · exact Keeps.keeps hts hb

instance : AllKeep P ([] : List (Reader κ)) := ⟨by simp⟩

instance {readers : List (Reader κ)} [Keeps P r] [AllKeep P readers] :
    AllKeep P (r :: readers) where
  keeps := by
    intro r' hr'
    rcases List.mem_cons.mp hr' with rfl | hr'
    · infer_instance
    · exact AllKeep.keeps r' hr'

instance {readers : List (Reader κ)} [AllKeep P readers] : Keeps P (oneOf readers) where
  keeps := by
    intro ts rest xs hts hrun
    obtain ⟨r, hr, hrun⟩ := List.exists_of_findSome?_eq_some hrun
    exact (AllKeep.keeps r hr).keeps hts hrun

instance [Keeps P r] : Keeps P (maybe r) where
  keeps := by
    intro ts rest xs hts hrun
    rcases Option.or_eq_some_iff.mp hrun with hr | ⟨-, hrun⟩
    · exact Keeps.keeps hts hr
    · obtain ⟨rfl, rfl⟩ := Prod.mk.inj (Option.some.inj hrun)
      exact ⟨.nil, hts⟩

instance {condition : List Token → Bool} [Keeps P a] [Keeps P b] :
    Keeps P (branch condition a b) where
  keeps := by
    intro ts rest xs hts hrun
    dsimp only [branch] at hrun
    split at hrun
    · exact Keeps.keeps hts hrun
    · exact Keeps.keeps hts hrun

instance {condition : List Token → Bool} [Keeps P r] : Keeps P (guarded condition r) where
  keeps := by
    intro ts rest xs hts hrun
    dsimp only [guarded] at hrun
    split at hrun
    · exact Keeps.keeps hts hrun
    · cases hrun

/-- A reader chosen after a look at the tokens keeps what every choice keeps. -/
theorem keeps_choice {choose : List Token → Reader κ} (h : ∀ ts, (choose ts).Keeps P) :
    Keeps P ⟨fun ts => (choose ts).run ts⟩ where
  keeps hts hrun := (h _).keeps hts hrun

theorem keeps_repeatUpTo (r : Reader κ) [Keeps P r] (n : Nat) {ts : List Token}
    (hts : ∀ t ∈ ts, P.Allows t) :
    EveryIn P.Met (repeatUpTo r n ts).1 ∧ ∀ t ∈ (repeatUpTo r n ts).2, P.Allows t := by
  induction n generalizing ts with
  | zero => exact ⟨.nil, hts⟩
  | succ n ih =>
    rw [repeatUpTo]
    split
    · next xs rest hrun =>
      split
      · obtain ⟨hxs, hrest⟩ := Keeps.keeps hts hrun
        obtain ⟨hys, hrest⟩ := ih hrest
        exact ⟨hxs.append hys, hrest⟩
      · exact ⟨.nil, hts⟩
    · exact ⟨.nil, hts⟩

instance [Keeps P r] : Keeps P (many r) where
  keeps := by
    intro ts rest xs hts hrun
    have hrepeat := keeps_repeatUpTo r ts.length hts
    rw [Option.some.inj hrun] at hrepeat
    exact hrepeat

instance [Keeps P r] : Keeps P (many1 r) := inferInstanceAs (Keeps P (r ++ many r))

instance [Keeps P a] [Keeps P b] : Keeps P (sepBy1 a b) :=
  inferInstanceAs (Keeps P (a ++ many (b ++ a)))

instance [Keeps P a] [Keeps P b] : Keeps P (sepBy a b) :=
  inferInstanceAs (Keeps P (maybe (sepBy1 a b)))

/-! ### Extension to the right -/

/-- What comes next, if anything does, is joined to what was there as promised. -/
class Augments (P : Promise κ) (next : Option (Reader κ × (Forest κ → Forest κ → Forest κ))) :
    Prop where
  keeps : ∀ {r : Reader κ} {join : Forest κ → Forest κ → Forest κ}, next = some (r, join) →
    ∀ {ts rest : List Token} {xs ys : Forest κ}, EveryIn P.Met xs → (∀ t ∈ ts, P.Allows t) →
      r.run ts = some (ys, rest) → EveryIn P.Met (join xs ys) ∧ ∀ t ∈ rest, P.Allows t

/-- Every step joins what it reads to what was there as promised. -/
class KeepsStep (P : Promise κ)
    (step : List Token → Option (Reader κ × (Forest κ → Forest κ → Forest κ))) : Prop where
  augments_step : ∀ ts, Augments P (step ts)

section Extension

variable {next next' : Option (Reader κ × (Forest κ → Forest κ → Forest κ))}

instance : Augments P (none : Option (Reader κ × (Forest κ → Forest κ → Forest κ))) where
  keeps h := by cases h

instance {kind : κ} [Keeps P r] [Yields (SuppliesAll (P.needs kind)) r] :
    Augments P (some (r, fun xs ys : Forest κ => Tree.phrase kind (xs ++ ys))) where
  keeps := by
    intro r' join' hnext ts rest xs ys hxs hts hrun
    obtain ⟨rfl, rfl⟩ := Prod.mk.inj (Option.some.inj hnext)
    obtain ⟨hys, hrest⟩ := Keeps.keeps hts hrun
    have hneeds : SuppliesAll (P.needs kind) ys := Yields.yields hrun
    exact ⟨P.everyIn_phrase (hxs.append hys) (hneeds.mono (List.subset_append_right _ _)), hrest⟩

instance {kind : κ} {role : Role} [Unreserved (P.reserves role)] [Keeps P r]
    [Yields (SuppliesAll (P.needs kind)) r] :
    Augments P (some (r, fun xs ys : Forest κ =>
      Tree.phrase kind (Tree.labelled role xs ++ ys))) where
  keeps := by
    intro r' join' hnext ts rest xs ys hxs hts hrun
    obtain ⟨rfl, rfl⟩ := Prod.mk.inj (Option.some.inj hnext)
    obtain ⟨hys, hrest⟩ := Keeps.keeps hts hrun
    have hneeds : SuppliesAll (P.needs kind) ys := Yields.yields hrun
    have hlabelled : EveryIn P.Met (Tree.labelled role xs) :=
      P.everyIn_labelled hxs (by simp [Unreserved.eq_none (o := P.reserves role)])
    exact ⟨P.everyIn_phrase (hlabelled.append hys) (hneeds.mono (List.subset_append_right _ _)),
      hrest⟩

instance {c : Prop} [Decidable c] [Augments P next] [Augments P next'] :
    Augments P (if c then next else next') := by
  split <;> infer_instance

end Extension

theorem keeps_extendUpTo (step : List Token → Option (Reader κ × (Forest κ → Forest κ → Forest κ)))
    [KeepsStep P step] (n : Nat) {xs : Forest κ} {ts : List Token} (hxs : EveryIn P.Met xs)
    (hts : ∀ t ∈ ts, P.Allows t) :
    EveryIn P.Met (extendUpTo step n xs ts).1 ∧ ∀ t ∈ (extendUpTo step n xs ts).2, P.Allows t := by
  induction n generalizing xs ts with
  | zero => exact ⟨hxs, hts⟩
  | succ n ih =>
    rw [extendUpTo]
    split
    · exact ⟨hxs, hts⟩
    · next r join hstep =>
      split
      · next ys rest hrun =>
        obtain ⟨hjoin, hrest⟩ := (KeepsStep.augments_step ts).keeps hstep hxs hts hrun
        exact ih hjoin hrest
      · exact ⟨hxs, hts⟩

instance {step : List Token → Option (Reader κ × (Forest κ → Forest κ → Forest κ))} [Keeps P r]
    [KeepsStep P step] : Keeps P (extending r step) where
  keeps := by
    intro ts rest ys hts hrun
    obtain ⟨⟨xs, ts'⟩, hr, hrun⟩ := Option.bind_eq_some_iff.mp hrun
    obtain ⟨hxs, hts'⟩ := Keeps.keeps hts hr
    have hextend := keeps_extendUpTo step ts'.length hxs hts'
    rw [Option.some.inj hrun] at hextend
    exact hextend

/-! ### Readers that refer to one another -/

/-- **Readers tied together by rules that form their nodes form theirs**, to whatever depth
references are followed. -/
theorem keeps_fix {γ : Type} {rules : (γ → Reader κ) → γ → Reader κ}
    (h : ∀ n, (∀ g, (fix rules n g).Keeps P) → ∀ g, (rules (fix rules n) g).Keeps P)
    (n : Nat) (g : γ) :
    (fix rules n g).Keeps P := by
  induction n generalizing g with
  | zero => exact inferInstanceAs (Keeps P fail)
  | succ n ih => exact h n ih g

/-- What a reader makes is as promised, also when it does not apply and makes nothing. -/
theorem everyIn_run (r : Reader κ) [Keeps P r] {ts : List Token} (hts : ∀ t ∈ ts, P.Allows t) :
    EveryIn P.Met (match r.run ts with | some (forest, _) => forest | none => []) := by
  split
  · next forest rest hrun => exact (Keeps.keeps hts hrun).1
  · exact .nil

/-! ### Phrases, roles and leaves -/

instance {kind : κ} [Keeps P r] [Yields (SuppliesAll (P.needs kind)) r] :
    Keeps P (phrase kind r) where
  keeps := by
    intro ts rest ys hts hrun
    obtain ⟨⟨xs, ts'⟩, hr, hrun⟩ := Option.map_eq_some_iff.mp hrun
    obtain ⟨rfl, rfl⟩ := Prod.mk.inj hrun
    obtain ⟨hxs, hrest⟩ := Keeps.keeps hts hr
    exact ⟨P.everyIn_phrase hxs (Yields.yields hr), hrest⟩

instance {role : Role} [Keeps P r] [Suits (P.reserves role) r] : Keeps P (as role r) where
  keeps := by
    intro ts rest ys hts hrun
    obtain ⟨⟨xs, ts'⟩, hr, hrun⟩ := Option.map_eq_some_iff.mp hrun
    obtain ⟨rfl, rfl⟩ := Prod.mk.inj hrun
    obtain ⟨hxs, hrest⟩ := Keeps.keeps hts hr
    refine ⟨P.everyIn_labelled hxs fun ys t hlast => ?_, hrest⟩
    subst hlast
    exact Suits.suits hr

instance {kind : κ} {condition : Token → Bool} [Needless (P.needs kind)] :
    Keeps P (leafIf kind condition) where
  keeps := by
    intro ts rest xs hts hrun
    cases ts with
    | nil => cases hrun
    | cons t ts =>
      dsimp only [leafIf] at hrun
      split at hrun
      · obtain ⟨rfl, rfl⟩ := Prod.mk.inj (Option.some.inj hrun)
        exact ⟨P.everyIn_leaf Needless.eq_nil (hts t List.mem_cons_self),
          fun u hu => hts u (List.mem_cons_of_mem t hu)⟩
      · cases hrun

instance {text : String} : Keeps P (tok text : Reader κ) :=
  have : Needless (P.needs NodeKind.token) := ⟨P.needs_token⟩
  inferInstanceAs (Keeps P (leafIf NodeKind.token fun t => t.reads text))

instance {texts : List String} : Keeps P (tokIn texts : Reader κ) :=
  have : Needless (P.needs NodeKind.token) := ⟨P.needs_token⟩
  inferInstanceAs (Keeps P (leafIf NodeKind.token fun t =>
    (t.kind == .word || t.kind == .mark) && texts.contains t.text))

end Keeps

end Reader

/-! ## Chains of operators -/

namespace Chain

variable [NodeKind κ] {P : Promise κ}

/-- Joining an operator with the operands around it gives nodes as promised. -/
class JoinsAs (P : Promise κ) (join : Forest κ → Forest κ → Forest κ → Forest κ) : Prop where
  keeps : ∀ {xs op ys : Forest κ}, EveryIn P.Met xs → EveryIn P.Met op → EveryIn P.Met ys →
    EveryIn P.Met (join xs op ys)

instance {kind : κ} [Reader.Needless (P.needs kind)] :
    JoinsAs P fun xs op ys : Forest κ => Tree.phrase kind (xs ++ op ++ ys) where
  keeps hxs hop hys := by
    have hneeds : P.needs kind = [] := Reader.Needless.eq_nil
    exact P.everyIn_phrase ((hxs.append hop).append hys) (by simp [SuppliesAll, hneeds])

instance {kind : κ} {leftRole opRole rightRole : Role} [Reader.Needless (P.needs kind)]
    [Reader.Unreserved (P.reserves leftRole)] [Reader.Unreserved (P.reserves opRole)]
    [Reader.Unreserved (P.reserves rightRole)] :
    JoinsAs P fun xs op ys : Forest κ =>
      Tree.phrase kind
        (Tree.labelled leftRole xs ++ Tree.labelled opRole op ++ Tree.labelled rightRole ys) where
  keeps hxs hop hys := by
    have hneeds : P.needs kind = [] := Reader.Needless.eq_nil
    have hfree : ∀ {role : Role} [Reader.Unreserved (P.reserves role)] {zs : Forest κ},
        EveryIn P.Met zs → EveryIn P.Met (Tree.labelled role zs) := fun {role _ _} hzs =>
      P.everyIn_labelled hzs (by simp [Reader.Unreserved.eq_none (o := P.reserves role)])
    exact P.everyIn_phrase (((hfree hxs).append (hfree hop)).append (hfree hys))
      (by simp [SuppliesAll, hneeds])

/-- The operator of a link and its operand are as promised, and so is what the operator joins. -/
structure LinkAs (P : Promise κ) (l : Link κ) : Prop where
  joins : JoinsAs P l.join
  operator : EveryIn P.Met l.operator
  operand : EveryIn P.Met l.operand

/-- The link at the front of some tokens, if there is one, is as promised. -/
class Leads (P : Promise κ) (ts : List Token) (next : Option (Link κ × List Token)) : Prop where
  keeps : ∀ {l : Link κ} {rest : List Token}, (∀ t ∈ ts, P.Allows t) → next = some (l, rest) →
    LinkAs P l ∧ ∀ t ∈ rest, P.Allows t

/-- The links that are read are as promised. -/
class KeepsLink (P : Promise κ) (link : List Token → Option (Link κ × List Token)) : Prop where
  leads : ∀ ts, Leads P ts (link ts)

section Link

variable {ts : List Token} {next next' : Option (Link κ × List Token)}

instance : Leads P ts (none : Option (Link κ × List Token)) where
  keeps _ h := by cases h

instance {c : Prop} [Decidable c] [Leads P ts next] [Leads P ts next'] :
    Leads P ts (if c then next else next') := by
  split <;> infer_instance

instance {α : Type} {o : Option α} {f : α → Option (Link κ × List Token)} [∀ a, Leads P ts (f a)] :
    Leads P ts (o.bind f) := by
  cases o with
  | none => exact inferInstanceAs (Leads P ts none)
  | some a => exact inferInstanceAs (Leads P ts (f a))

instance {level : Nat} {join : Forest κ → Forest κ → Forest κ → Forest κ} [JoinsAs P join]
    {operator operand : Reader κ} [operator.Keeps P] [operand.Keeps P] :
    Leads P ts (Link.read level join operator operand ts) where
  keeps := by
    intro l rest hts hread
    obtain ⟨⟨op, ts'⟩, hop, hread⟩ := Option.bind_eq_some_iff.mp hread
    obtain ⟨⟨right, ts''⟩, hright, hread⟩ := Option.bind_eq_some_iff.mp hread
    obtain ⟨rfl, rfl⟩ := Prod.mk.inj (Option.some.inj hread)
    obtain ⟨hop, hts'⟩ := Reader.Keeps.keeps hts hop
    obtain ⟨hright, hrest⟩ := Reader.Keeps.keeps hts' hright
    exact ⟨⟨inferInstance, hop, hright⟩, hrest⟩

end Link

theorem keeps_readLinks (link : List Token → Option (Link κ × List Token))
    [KeepsLink P link] (n : Nat)
    {ts : List Token} (hts : ∀ t ∈ ts, P.Allows t) :
    (∀ l ∈ (readLinks link n ts).1, LinkAs P l) ∧ ∀ t ∈ (readLinks link n ts).2, P.Allows t := by
  induction n generalizing ts with
  | zero => exact ⟨by simp [readLinks], hts⟩
  | succ n ih =>
    rw [readLinks]
    split
    · next l rest hlink =>
      obtain ⟨hl, hrest⟩ := (KeepsLink.leads ts).keeps hts hlink
      obtain ⟨hlinks, hrest⟩ := ih hrest
      exact ⟨List.forall_mem_cons.mpr ⟨hl, hlinks⟩, hrest⟩
    · exact ⟨by simp, hts⟩

theorem keeps_joinLevel (level : Nat) {first : Forest κ} {links : List (Link κ)}
    (hfirst : EveryIn P.Met first) (hlinks : ∀ l ∈ links, LinkAs P l) :
    EveryIn P.Met (joinLevel level first links).first ∧
      ∀ l ∈ (joinLevel level first links).links, LinkAs P l := by
  induction links generalizing first with
  | nil => exact ⟨hfirst, hlinks⟩
  | cons l links ih =>
    obtain ⟨⟨hjoin, hop, hright⟩, hlinks⟩ := List.forall_mem_cons.mp hlinks
    rw [joinLevel]
    split
    · exact ih (hjoin.keeps hfirst hop hright) hlinks
    · obtain ⟨hright', hlinks'⟩ := ih hright hlinks
      exact ⟨hfirst, List.forall_mem_cons.mpr ⟨⟨hjoin, hop, hright'⟩, hlinks'⟩⟩

theorem everyIn_joinAll (level : Nat) {chain : Chain κ} (hfirst : EveryIn P.Met chain.first)
    (hlinks : ∀ l ∈ chain.links, LinkAs P l) : EveryIn P.Met (joinAll level chain) := by
  induction level generalizing chain with
  | zero => exact hfirst
  | succ level ih =>
    obtain ⟨hfirst', hlinks'⟩ := keeps_joinLevel (level + 1) hfirst hlinks
    exact ih hfirst' hlinks'

instance {top : Nat} {operand : Reader κ} {link : List Token → Option (Link κ × List Token)}
    [operand.Keeps P] [KeepsLink P link] : (reader top operand link).Keeps P where
  keeps := by
    intro ts rest ys hts hrun
    obtain ⟨⟨first, ts'⟩, hoperand, hrun⟩ := Option.bind_eq_some_iff.mp hrun
    obtain ⟨rfl, rfl⟩ := Prod.mk.inj (Option.some.inj hrun)
    obtain ⟨hfirst, hts'⟩ := Reader.Keeps.keeps hts hoperand
    obtain ⟨hlinks, hrest⟩ := keeps_readLinks link ts'.length hts'
    exact ⟨everyIn_joinAll top hfirst hlinks, hrest⟩

end Chain

end AdLint
