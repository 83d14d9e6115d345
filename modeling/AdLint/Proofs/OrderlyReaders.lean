import AdLint.Proofs.Placement
import AdLint.Source.Chain

/-!
# Orderly readers

A reader is orderly when it makes a placed forest of tokens in order: the nodes of the forest follow
one another, each level inside the one above, and the tokens that are left stand behind them. Every
way to put readers together keeps them orderly. The facts about it are instances, so that a rule of
a grammar is orderly by inference, from its own text and the rules that it refers to.

## Main definitions

* `Reader.Orderly r`: what the reader `r` makes of tokens in order is placed
* `Reader.OrderlyStep step`: a way to extend a forest to the right that keeps it placed
* `Chain.OrderlyLink link`: a reader of operators and operands that joins them in their order

## Main results

* `Reader.orderly_fix`: readers that refer to one another through orderly rules are orderly
* `Chain.orderly_reader`: a chain of operators is orderly, on however many levels it is joined
-/

namespace AdLint

open AdLint.Tree (PlacedIn)

variable {κ : Type}

namespace Reader

/-- What the reader makes of tokens in order is placed, with the tokens that are left behind it. -/
class Orderly (r : Reader κ) : Prop where
  placed : ∀ {lo : Nat} {ts rest : List Token} {xs : Forest κ}, Token.InOrder lo ts →
    r.run ts = some (xs, rest) → ∃ mid, PlacedIn lo mid xs ∧ Token.InOrder mid rest

/-- All of some readers are orderly. -/
class AllOrderly (readers : List (Reader κ)) : Prop where
  orderly : ∀ r ∈ readers, r.Orderly

variable {a b r : Reader κ}

/-! ## Sequence, choice and repetition -/

instance : Orderly (nothing : Reader κ) where
  placed := by
    intro lo ts rest xs hts hrun
    obtain ⟨rfl, rfl⟩ := Prod.mk.inj (Option.some.inj hrun)
    exact ⟨lo, .nil le_rfl, hts⟩

instance : Orderly (fail : Reader κ) where
  placed := by
    intro lo ts rest xs hts hrun
    exact absurd hrun (by simp [fail])

instance [Orderly a] [Orderly b] : Orderly (a ++ b) where
  placed := by
    intro lo ts rest zs hts hrun
    obtain ⟨⟨xs, ts'⟩, ha, hrun⟩ := Option.bind_eq_some_iff.mp hrun
    obtain ⟨⟨ys, ts''⟩, hb, hrun⟩ := Option.bind_eq_some_iff.mp hrun
    obtain ⟨rfl, rfl⟩ := Prod.mk.inj (Option.some.inj hrun)
    obtain ⟨mid, hxs, hts'⟩ := Orderly.placed hts ha
    obtain ⟨hi, hys, hrest⟩ := Orderly.placed hts' hb
    exact ⟨hi, hxs.append hys, hrest⟩

instance {b : Unit → Reader κ} [Orderly a] [Orderly (b ())] : Orderly (HOrElse.hOrElse a b) where
  placed := by
    intro lo ts rest xs hts hrun
    rcases Option.or_eq_some_iff.mp hrun with ha | ⟨-, hb⟩
    · exact Orderly.placed hts ha
    · exact Orderly.placed hts hb

instance : AllOrderly ([] : List (Reader κ)) := ⟨by simp⟩

instance {readers : List (Reader κ)} [Orderly r] [AllOrderly readers] :
    AllOrderly (r :: readers) where
  orderly := by
    intro r' hr'
    rcases List.mem_cons.mp hr' with rfl | hr'
    · infer_instance
    · exact AllOrderly.orderly r' hr'

instance {readers : List (Reader κ)} [AllOrderly readers] : Orderly (oneOf readers) where
  placed := by
    intro lo ts rest xs hts hrun
    obtain ⟨r, hr, hrun⟩ := List.exists_of_findSome?_eq_some hrun
    have := AllOrderly.orderly r hr
    exact Orderly.placed hts hrun

instance [Orderly r] : Orderly (maybe r) where
  placed := by
    intro lo ts rest xs hts hrun
    rcases Option.or_eq_some_iff.mp hrun with hr | ⟨-, hrun⟩
    · exact Orderly.placed hts hr
    · obtain ⟨rfl, rfl⟩ := Prod.mk.inj (Option.some.inj hrun)
      exact ⟨lo, .nil le_rfl, hts⟩

instance {condition : List Token → Bool} [Orderly a] [Orderly b] :
    Orderly (branch condition a b) where
  placed := by
    intro lo ts rest xs hts hrun
    dsimp only [branch] at hrun
    split at hrun
    · exact Orderly.placed hts hrun
    · exact Orderly.placed hts hrun

instance {condition : List Token → Bool} [Orderly r] : Orderly (guarded condition r) where
  placed := by
    intro lo ts rest xs hts hrun
    dsimp only [guarded] at hrun
    split at hrun
    · exact Orderly.placed hts hrun
    · cases hrun

/-- A reader chosen after a look at the tokens is orderly if every choice is. -/
theorem orderly_choice {choose : List Token → Reader κ} (h : ∀ ts, (choose ts).Orderly) :
    Orderly ⟨fun ts => (choose ts).run ts⟩ where
  placed hts hrun := (h _).placed hts hrun

theorem placed_repeatUpTo (r : Reader κ) [Orderly r] (n : Nat) {lo : Nat} {ts : List Token}
    (hts : Token.InOrder lo ts) :
    ∃ mid, PlacedIn lo mid (repeatUpTo r n ts).1 ∧ Token.InOrder mid (repeatUpTo r n ts).2 := by
  induction n generalizing lo ts with
  | zero => exact ⟨lo, .nil le_rfl, hts⟩
  | succ n ih =>
    rw [repeatUpTo]
    split
    · next xs rest hrun =>
      -- a round that takes no token ends the repetition, and what it made is dropped
      split
      · obtain ⟨mid, hxs, hrest⟩ := Orderly.placed hts hrun
        obtain ⟨hi, hys, hrest⟩ := ih hrest
        exact ⟨hi, hxs.append hys, hrest⟩
      · exact ⟨lo, .nil le_rfl, hts⟩
    · exact ⟨lo, .nil le_rfl, hts⟩

instance [Orderly r] : Orderly (many r) where
  placed := by
    intro lo ts rest xs hts hrun
    obtain ⟨mid, hxs, hrest⟩ := placed_repeatUpTo r ts.length hts
    rw [Option.some.inj hrun] at hxs hrest
    exact ⟨mid, hxs, hrest⟩

instance [Orderly r] : Orderly (many1 r) := inferInstanceAs (Orderly (r ++ many r))

instance [Orderly a] [Orderly b] : Orderly (sepBy1 a b) :=
  inferInstanceAs (Orderly (a ++ many (b ++ a)))

instance [Orderly a] [Orderly b] : Orderly (sepBy a b) :=
  inferInstanceAs (Orderly (maybe (sepBy1 a b)))

/-! ## Extension to the right -/

/-- Joining two forests that follow one another gives a placed forest. -/
class Joins (join : Forest κ → Forest κ → Forest κ) : Prop where
  placed : ∀ {lo mid hi : Nat} {xs ys : Forest κ}, PlacedIn lo mid xs → PlacedIn mid hi ys →
    PlacedIn lo hi (join xs ys)

/-- What comes next, if anything does, is read orderly and joined behind what was there. -/
class Extends (next : Option (Reader κ × (Forest κ → Forest κ → Forest κ))) : Prop where
  orderly : ∀ {r : Reader κ} {join : Forest κ → Forest κ → Forest κ}, next = some (r, join) →
    r.Orderly ∧ Joins join

/-- Every step reads orderly and joins what it reads behind what was there. -/
class OrderlyStep (step : List Token → Option (Reader κ × (Forest κ → Forest κ → Forest κ))) :
    Prop where
  extends_step : ∀ ts, Extends (step ts)

section Extension

variable {next next' : Option (Reader κ × (Forest κ → Forest κ → Forest κ))}

instance : Extends (none : Option (Reader κ × (Forest κ → Forest κ → Forest κ))) where
  orderly h := by cases h

instance {join : Forest κ → Forest κ → Forest κ} [Orderly r] [Joins join] :
    Extends (some (r, join)) where
  orderly h := by
    obtain ⟨rfl, rfl⟩ := Prod.mk.inj (Option.some.inj h)
    exact ⟨inferInstance, inferInstance⟩

instance {c : Prop} [Decidable c] [Extends next] [Extends next'] :
    Extends (if c then next else next') := by
  split <;> infer_instance

end Extension

variable (step : List Token → Option (Reader κ × (Forest κ → Forest κ → Forest κ)))

theorem placed_extendUpTo [OrderlyStep step] (n : Nat) {lo mid : Nat} {xs : Forest κ}
    {ts : List Token} (hxs : PlacedIn lo mid xs) (hts : Token.InOrder mid ts) :
    ∃ hi, PlacedIn lo hi (extendUpTo step n xs ts).1 ∧
      Token.InOrder hi (extendUpTo step n xs ts).2 := by
  induction n generalizing mid xs ts with
  | zero => exact ⟨mid, hxs, hts⟩
  | succ n ih =>
    rw [extendUpTo]
    split
    · exact ⟨mid, hxs, hts⟩
    · next r join hstep =>
      obtain ⟨hr, hjoin⟩ := (OrderlyStep.extends_step ts).orderly hstep
      split
      · next ys rest hrun =>
        -- the forest so far becomes part of what the join makes, so its end moves
        obtain ⟨hi, hys, hrest⟩ := hr.placed hts hrun
        exact ih (hjoin.placed hxs hys) hrest
      · exact ⟨mid, hxs, hts⟩

instance {step : List Token → Option (Reader κ × (Forest κ → Forest κ → Forest κ))} [Orderly r]
    [OrderlyStep step] : Orderly (extending r step) where
  placed := by
    intro lo ts rest ys hts hrun
    obtain ⟨⟨xs, ts'⟩, hr, hrun⟩ := Option.bind_eq_some_iff.mp hrun
    obtain ⟨mid, hxs, hts'⟩ := Orderly.placed hts hr
    obtain ⟨hi, hys, hrest⟩ := placed_extendUpTo step ts'.length hxs hts'
    rw [Option.some.inj hrun] at hys hrest
    exact ⟨hi, hys, hrest⟩

/-! ## Readers that refer to one another -/

/-- **Readers tied together by orderly rules are orderly**, to whatever depth references are
followed. -/
theorem orderly_fix {γ : Type} {rules : (γ → Reader κ) → γ → Reader κ}
    (h : ∀ self, (∀ g, (self g).Orderly) → ∀ g, (rules self g).Orderly) (n : Nat) (g : γ) :
    (fix rules n g).Orderly := by
  induction n generalizing g with
  | zero => exact inferInstanceAs (Orderly fail)
  | succ n ih => exact h (fix rules n) ih g

/-- What an orderly reader makes is placed, also when it does not apply and makes nothing. -/
theorem exists_placedIn_run (r : Reader κ) [Orderly r] {lo : Nat} {ts : List Token}
    (hts : Token.InOrder lo ts) :
    ∃ hi, PlacedIn lo hi (match r.run ts with | some (forest, _) => forest | none => []) := by
  split
  · next forest rest hrun =>
    obtain ⟨hi, hforest, -⟩ := Orderly.placed hts hrun
    exact ⟨hi, hforest⟩
  · exact ⟨lo, .nil le_rfl⟩

/-! ## Phrases, roles and leaves -/

variable [NodeKind κ]

instance {kind : κ} : Joins fun xs ys : Forest κ => Tree.phrase kind (xs ++ ys) where
  placed hxs hys := (hxs.append hys).phrase kind

instance {kind : κ} {role : Role} :
    Joins fun xs ys : Forest κ => Tree.phrase kind (Tree.labelled role xs ++ ys) where
  placed hxs hys := ((hxs.labelled role).append hys).phrase kind

instance {kind : κ} [Orderly r] : Orderly (phrase kind r) where
  placed := by
    intro lo ts rest ys hts hrun
    obtain ⟨⟨xs, ts'⟩, hr, hrun⟩ := Option.map_eq_some_iff.mp hrun
    obtain ⟨rfl, rfl⟩ := Prod.mk.inj hrun
    obtain ⟨mid, hxs, hrest⟩ := Orderly.placed hts hr
    exact ⟨mid, hxs.phrase kind, hrest⟩

instance {role : Role} [Orderly r] : Orderly (as role r) where
  placed := by
    intro lo ts rest ys hts hrun
    obtain ⟨⟨xs, ts'⟩, hr, hrun⟩ := Option.map_eq_some_iff.mp hrun
    obtain ⟨rfl, rfl⟩ := Prod.mk.inj hrun
    obtain ⟨mid, hxs, hrest⟩ := Orderly.placed hts hr
    exact ⟨mid, hxs.labelled role, hrest⟩

instance {kind : κ} {condition : Token → Bool} : Orderly (leafIf kind condition) where
  placed := by
    intro lo ts rest xs hts hrun
    cases ts with
    | nil => cases hrun
    | cons t ts =>
      dsimp only [leafIf] at hrun
      split at hrun
      · obtain ⟨rfl, rfl⟩ := Prod.mk.inj (Option.some.inj hrun)
        obtain ⟨ht, hts⟩ := hts
        exact ⟨t.span.stop, .leaf kind ht, hts⟩
      · cases hrun

instance {text : String} : Orderly (tok text : Reader κ) :=
  inferInstanceAs (Orderly (leafIf NodeKind.token fun t => t.reads text))

instance {texts : List String} : Orderly (tokIn texts : Reader κ) :=
  inferInstanceAs (Orderly (leafIf NodeKind.token fun t =>
    (t.kind == .word || t.kind == .mark) && texts.contains t.text))

end Reader

/-! ## Chains of operators -/

namespace Chain

/-- Joining an operator with the operands around it gives a placed forest. -/
class Joins (join : Forest κ → Forest κ → Forest κ → Forest κ) : Prop where
  placed : ∀ {lo m₁ m₂ hi : Nat} {xs op ys : Forest κ}, PlacedIn lo m₁ xs → PlacedIn m₁ m₂ op →
    PlacedIn m₂ hi ys → PlacedIn lo hi (join xs op ys)

instance [NodeKind κ] {kind : κ} :
    Joins fun xs op ys : Forest κ => Tree.phrase kind (xs ++ op ++ ys) where
  placed hxs hop hys := ((hxs.append hop).append hys).phrase kind

instance [NodeKind κ] {kind : κ} {leftRole opRole rightRole : Role} :
    Joins fun xs op ys : Forest κ =>
      Tree.phrase kind
        (Tree.labelled leftRole xs ++ Tree.labelled opRole op ++ Tree.labelled rightRole ys) where
  placed hxs hop hys :=
    (((hxs.labelled leftRole).append (hop.labelled opRole)).append (hys.labelled rightRole)).phrase
      kind

/-- The operator of a link and its operand are placed and follow one another, and the operator joins
operands in their order. -/
structure LinkIn (lo hi : Nat) (l : Link κ) : Prop where
  joins : Joins l.join
  placed : ∃ mid, PlacedIn lo mid l.operator ∧ PlacedIn mid hi l.operand

/-- Some links are placed and follow one another. -/
def LinksIn : Nat → Nat → List (Link κ) → Prop
  | lo, hi, [] => lo ≤ hi
  | lo, hi, l :: links => ∃ mid, LinkIn lo mid l ∧ LinksIn mid hi links

theorem LinkIn.le {lo hi : Nat} {l : Link κ} (h : LinkIn lo hi l) : lo ≤ hi := by
  obtain ⟨mid, hop, hys⟩ := h.placed
  exact hop.le.trans hys.le

theorem LinksIn.le {lo hi : Nat} {links : List (Link κ)} (h : LinksIn lo hi links) : lo ≤ hi := by
  induction links generalizing lo with
  | nil => exact h
  | cons l links ih =>
    obtain ⟨mid, hl, hlinks⟩ := h
    exact hl.le.trans (ih hlinks)

/-- The link at the front of some tokens in order, if there is one, is placed before those left. -/
class Follows (ts : List Token) (next : Option (Link κ × List Token)) : Prop where
  placed : ∀ {lo : Nat} {l : Link κ} {rest : List Token}, Token.InOrder lo ts →
    next = some (l, rest) → ∃ mid, LinkIn lo mid l ∧ Token.InOrder mid rest

/-- The links that are read of tokens in order are placed. -/
class OrderlyLink (link : List Token → Option (Link κ × List Token)) : Prop where
  follows : ∀ ts, Follows ts (link ts)

section Link

variable {ts : List Token} {next next' : Option (Link κ × List Token)}

instance : Follows ts (none : Option (Link κ × List Token)) where
  placed _ h := by cases h

instance {c : Prop} [Decidable c] [Follows ts next] [Follows ts next'] :
    Follows ts (if c then next else next') := by
  split <;> infer_instance

instance {α : Type} {o : Option α} {f : α → Option (Link κ × List Token)} [∀ a, Follows ts (f a)] :
    Follows ts (o.bind f) := by
  cases o with
  | none => exact inferInstanceAs (Follows ts none)
  | some a => exact inferInstanceAs (Follows ts (f a))

instance {level : Nat} {join : Forest κ → Forest κ → Forest κ → Forest κ} [Joins join]
    {operator operand : Reader κ} [operator.Orderly] [operand.Orderly] :
    Follows ts (Link.read level join operator operand ts) where
  placed := by
    intro lo l rest hts hread
    obtain ⟨⟨op, ts'⟩, hop, hread⟩ := Option.bind_eq_some_iff.mp hread
    obtain ⟨⟨right, ts''⟩, hright, hread⟩ := Option.bind_eq_some_iff.mp hread
    obtain ⟨rfl, rfl⟩ := Prod.mk.inj (Option.some.inj hread)
    obtain ⟨mid, hop, hts'⟩ := Reader.Orderly.placed hts hop
    obtain ⟨hi, hright, hrest⟩ := Reader.Orderly.placed hts' hright
    exact ⟨hi, ⟨inferInstance, mid, hop, hright⟩, hrest⟩

end Link

variable (link : List Token → Option (Link κ × List Token))

theorem linksIn_readLinks [OrderlyLink link] (n : Nat) {lo : Nat} {ts : List Token}
    (hts : Token.InOrder lo ts) :
    ∃ hi, LinksIn lo hi (readLinks link n ts).1 ∧ Token.InOrder hi (readLinks link n ts).2 := by
  induction n generalizing lo ts with
  | zero => exact ⟨lo, le_refl lo, hts⟩
  | succ n ih =>
    rw [readLinks]
    split
    · next l rest hlink =>
      obtain ⟨mid, hl, hrest⟩ := (OrderlyLink.follows ts).placed hts hlink
      obtain ⟨hi, hlinks, hrest⟩ := ih hrest
      exact ⟨hi, ⟨mid, hl, hlinks⟩, hrest⟩
    · exact ⟨lo, le_refl lo, hts⟩

/-- Joining the operators of a level keeps a chain in its order. -/
theorem placed_joinLevel (level : Nat) {lo mid hi : Nat} {first : Forest κ} {links : List (Link κ)}
    (hfirst : PlacedIn lo mid first) (hlinks : LinksIn mid hi links) :
    ∃ mid', PlacedIn lo mid' (joinLevel level first links).first ∧
      LinksIn mid' hi (joinLevel level first links).links := by
  induction links generalizing lo mid first with
  | nil => exact ⟨mid, hfirst, hlinks⟩
  | cons l links ih =>
    obtain ⟨stop, ⟨hjoin, m, hop, hright⟩, hlinks⟩ := hlinks
    rw [joinLevel]
    split
    · exact ih (hjoin.placed hfirst hop hright) hlinks
    · -- the link stays, and joining goes on with its operand
      obtain ⟨mid', hright', hlinks'⟩ := ih hright hlinks
      exact ⟨mid, hfirst, mid', ⟨hjoin, m, hop, hright'⟩, hlinks'⟩

/-- Joining the operators of all levels gives a placed forest. -/
theorem placed_joinAll (level : Nat) {lo mid hi : Nat} {chain : Chain κ}
    (hfirst : PlacedIn lo mid chain.first) (hlinks : LinksIn mid hi chain.links) :
    PlacedIn lo hi (joinAll level chain) := by
  induction level generalizing mid chain with
  | zero => exact hfirst.mono le_rfl hlinks.le
  | succ level ih =>
    obtain ⟨mid', hfirst', hlinks'⟩ := placed_joinLevel (level + 1) hfirst hlinks
    exact ih hfirst' hlinks'

instance orderly_reader {top : Nat} {operand : Reader κ}
    {link : List Token → Option (Link κ × List Token)} [operand.Orderly] [OrderlyLink link] :
    (reader top operand link).Orderly where
  placed := by
    intro lo ts rest ys hts hrun
    obtain ⟨⟨first, ts'⟩, hoperand, hrun⟩ := Option.bind_eq_some_iff.mp hrun
    obtain ⟨rfl, rfl⟩ := Prod.mk.inj (Option.some.inj hrun)
    obtain ⟨mid, hfirst, hts'⟩ := Reader.Orderly.placed hts hoperand
    obtain ⟨hi, hlinks, hrest⟩ := linksIn_readLinks link ts'.length hts'
    exact ⟨hi, placed_joinAll top hfirst hlinks, hrest⟩

end Chain

end AdLint
