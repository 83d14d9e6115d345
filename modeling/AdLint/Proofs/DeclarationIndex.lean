import AdLint.Project.Constant
import AdLint.Project.Hierarchy
import AdLint.Proofs.Assembly
import AdLint.Proofs.Reach
import Mathlib.Data.List.Nodup
import Mathlib.Logic.Function.Basic

/-!
# Indexes of declarations

A project keeps the record of its declarations and scans it for each answer. An index looks answers
up: it keeps, under each identifier, file and name, the keys of the declarations that belong there,
and the graph of the names of types. It is updated with every declaration. The updates depend on the
kind of the declaration, on whether it has a parent and on whether its identifier is new. Whatever
is added, in whatever order, an index gives the answers of the project.

If all identifiers are distinct, these answers are plain scans of what was added. Children may then
come before their parents. The fields of a type are its children, with each companion object
replaced by its own fields; a field occurs twice only if the type is a companion object that is its
own parent. If no declaration is its own ancestor, the search for a field goes through the whole
chain of parents.

## Main definitions

* `Index`, `Index.add`: an index and its update
* `Index.Reflects`: an index that agrees with the record of a project
* `childrenIn`, `fieldsIn`: plain scans for what stands in a declaration
* `IsParentIn`, `ParentChain`: parents, and the chain of parents up to a declaration without one

## Main results

* `Index.Reflects.add`, `Index.Reflects.foldl`: one update, and all of them
* `Project.Distinct.nodup_fieldsIn_iff`: when a field occurs twice
* `Project.Distinct.parentChain_ancestry`: the search ends where no parent is left
* `index_agrees_with_scans`: the answers of indexes and projects are scans
-/

namespace AdLint

open Relation (TransGen)

/-! ## Indexes -/

/-- What identifiers are compared by. -/
def DeclarationId.key (id : DeclarationId) : List Component × Nat × Nat :=
  (id.file.components, id.start, id.stop)

theorem DeclarationId.key_eq_iff {a b : DeclarationId} : a.key = b.key ↔ a.same b = true := by
  rw [same_iff, key, key, Prod.mk.injEq, Prod.mk.injEq]

/-- What declarations are looked up by. -/
def Declaration.key (d : Declaration) : List Component × Nat × Nat := d.id.key

/-- Lists under keys, with one more element under a key. -/
def push {κ ι : Type} [DecidableEq κ] (lists : κ → List ι) (key : κ) (x : ι) : κ → List ι :=
  Function.update lists key (lists key ++ [x])

theorem push_apply {κ ι : Type} [DecidableEq κ] (lists : κ → List ι) (key k : κ) (x : ι) :
    push lists key x k = lists k ++ if k = key then [x] else [] := by
  rw [push, Function.update_apply]
  split
  · next h => rw [h]
  · rw [List.append_nil]

/-- The declarations of a project under their identifiers, and the keys of those that belong
together. -/
structure Index where
  byId : List Component × Nat × Nat → Option Declaration := fun _ => none
  /-- The keys in the order in which they were first added. -/
  order : List (List Component × Nat × Nat) := []
  children : List Component × Nat × Nat → List (List Component × Nat × Nat) := fun _ => []
  byFile : List Component → List (List Component × Nat × Nat) := fun _ => []
  typesByName : String → List (List Component × Nat × Nat) := fun _ => []
  hierarchy : NameGraph := {}

namespace Index

/-- The index with one more declaration. -/
def add (ix : Index) (d : Declaration) : Index where
  byId := Function.update ix.byId d.key (some d)
  order := if (ix.byId d.key).isSome then ix.order else ix.order ++ [d.key]
  children :=
    match d.parent with
    | some parent => push ix.children parent.key d.key
    | none => ix.children
  byFile := push ix.byFile d.location.file.components d.key
  typesByName := if d.isType then push ix.typesByName d.name d.key else ix.typesByName
  hierarchy := ix.hierarchy.add d

/-- The declarations with these keys. -/
def withKeys (ix : Index) (keys : List (List Component × Nat × Nat)) : List Declaration :=
  keys.filterMap ix.byId

/-- All declarations. -/
def declarations (ix : Index) : List Declaration := ix.withKeys ix.order

/-- The types of a name. -/
def typesNamed (ix : Index) (name : String) : List Declaration := ix.withKeys (ix.typesByName name)

/-- The declarations that stand directly in the one with this identifier. -/
def childrenOf (ix : Index) (id : DeclarationId) : List Declaration :=
  ix.withKeys (ix.children id.key)

/-- The declarations located in a file. -/
def inFile (ix : Index) (file : Path) : List Declaration := ix.withKeys (ix.byFile file.components)

/-- Whether a declaration lies below a base type. -/
def isSubtypeOf (ix : Index) (d : Declaration) (base : String) : Bool :=
  ix.hierarchy.isSubtypeOf d base

/-- An index that **agrees with the record** of a project. -/
structure Reflects (ix : Index) (p : Project) : Prop where
  byId : ∀ id : DeclarationId, ix.byId id.key = p.find? id
  order : ix.order = (distinctBy (fun a b => a.id.same b.id) p.added).map Declaration.key
  children : ∀ id : DeclarationId, ix.children id.key =
    (p.added.filter fun d => d.parent.any fun parent => parent.same id).map Declaration.key
  byFile : ∀ file : Path, ix.byFile file.components =
    (p.added.filter fun d => d.location.file.same file).map Declaration.key
  typesByName : ∀ name, ix.typesByName name =
    (p.added.filter fun d => d.isType && d.name == name).map Declaration.key
  hierarchy : ix.hierarchy = p.hierarchy

end Index

/-! ## Updates -/

theorem distinctBy_concat {α : Type} (same : α → α → Bool) (xs : List α) (x : α) :
    distinctBy same (xs ++ [x]) =
      distinctBy same xs ++ if xs.any fun y => same y x then [] else [x] := by
  induction xs with
  | nil => rfl
  | cons y xs ih =>
    rw [List.cons_append, distinctBy, distinctBy, ih, List.filter_append, List.cons_append,
      List.any_cons]
    congr 2
    cases hy : same y x <;> cases xs.any fun y => same y x <;> simp [hy]

theorem filter_concat_map {α β : Type} (keep : α → Bool) (f : α → β) (xs : List α) (x : α) :
    ((xs ++ [x]).filter keep).map f = (xs.filter keep).map f ++ if keep x then [f x] else [] := by
  rw [List.filter_append, List.map_append]
  cases hx : keep x <;> simp [hx]

namespace Project

variable {p : Project} {d : Declaration} {id : DeclarationId}

theorem find?_addDeclaration (p : Project) (d : Declaration) (id : DeclarationId) :
    (p.addDeclaration d).find? id = if d.id.same id then some d else p.find? id := by
  rw [find?, addDeclaration, List.reverse_append, List.reverse_singleton, List.singleton_append,
    List.find?_cons]
  cases d.id.same id <;> rfl

theorem hierarchy_addDeclaration (p : Project) (d : Declaration) :
    (p.addDeclaration d).hierarchy = p.hierarchy.add d :=
  List.foldl_append

theorem added_foldl (p : Project) (ds : List Declaration) :
    (ds.foldl addDeclaration p).added = p.added ++ ds := by
  induction ds generalizing p with
  | nil => exact (List.append_nil _).symm
  | cons d ds ih =>
    rw [List.foldl_cons, ih, addDeclaration, List.append_assoc, List.singleton_append]

theorem isSome_find? (p : Project) (id : DeclarationId) :
    (p.find? id).isSome = p.added.any fun d => d.id.same id := by
  rw [find?, List.isSome_find?, List.any_reverse]

end Project

namespace Index

variable {ix : Index} {p : Project}

/-- **One update.** -/
theorem Reflects.add (h : ix.Reflects p) (d : Declaration) :
    (ix.add d).Reflects (p.addDeclaration d) where
  byId id := by
    have hkey : id.key = d.key ↔ d.id.same id = true := eq_comm.trans DeclarationId.key_eq_iff
    rw [p.find?_addDeclaration, ← h.byId]
    simp only [Index.add, Function.update_apply, hkey]
  order := by
    have hnew : (ix.byId d.key).isSome = p.added.any fun e => e.id.same d.id := by
      rw [Declaration.key, h.byId, p.isSome_find?]
    rw [Project.addDeclaration, distinctBy_concat, List.map_append, ← h.order]
    simp only [Index.add, hnew]
    split <;> simp
  children id := by
    rw [Project.addDeclaration, filter_concat_map, ← h.children]
    cases hparent : d.parent with
    | none => simp [Index.add, hparent]
    | some parent =>
      have hkey : id.key = parent.key ↔ parent.same id = true :=
        eq_comm.trans DeclarationId.key_eq_iff
      simp only [Index.add, hparent, push_apply, hkey, Option.any_some]
  byFile file := by
    have hkey : file.components = d.location.file.components ↔ d.location.file.same file = true :=
      eq_comm.trans Path.same_iff.symm
    rw [Project.addDeclaration, filter_concat_map, ← h.byFile]
    simp only [Index.add, push_apply, hkey]
  typesByName name := by
    have hkey : name = d.name ↔ (d.name == name) = true := eq_comm.trans beq_iff_eq.symm
    rw [Project.addDeclaration, filter_concat_map, ← h.typesByName]
    cases htype : d.isType with
    | false => simp [Index.add, htype]
    | true => simp only [Index.add, htype, if_true, push_apply, hkey, Bool.true_and]
  hierarchy := by
    rw [p.hierarchy_addDeclaration, ← h.hierarchy]
    rfl

/-- **All updates**: an index reflects the project with the same declarations. -/
theorem Reflects.foldl (h : ix.Reflects p) (ds : List Declaration) :
    (ds.foldl Index.add ix).Reflects (ds.foldl Project.addDeclaration p) := by
  induction ds generalizing ix p with
  | nil => exact h
  | cons d ds ih => exact ih (h.add d)

theorem reflects_empty : Reflects {} {} :=
  ⟨fun _ => rfl, rfl, fun _ => rfl, fun _ => rfl, fun _ => rfl, rfl⟩

section Answers

variable (h : ix.Reflects p)

include h

theorem Reflects.withKeys_eq (entries : List Declaration) :
    ix.withKeys (entries.map Declaration.key) = p.current entries := by
  rw [withKeys, List.filterMap_map]
  exact List.filterMap_congr fun d _ => h.byId d.id

theorem Reflects.declarations_eq : ix.declarations = p.declarations := by
  rw [declarations, h.order, h.withKeys_eq, Project.declarations]

theorem Reflects.typesNamed_eq (name : String) : ix.typesNamed name = p.typesNamed name := by
  rw [typesNamed, h.typesByName, h.withKeys_eq, Project.typesNamed]

theorem Reflects.childrenOf_eq (id : DeclarationId) : ix.childrenOf id = p.children id := by
  rw [childrenOf, h.children, h.withKeys_eq, Project.children]

theorem Reflects.inFile_eq (file : Path) : ix.inFile file = p.inFile file := by
  rw [inFile, h.byFile, h.withKeys_eq, Project.inFile]

theorem Reflects.isSubtypeOf_eq : ix.isSubtypeOf = p.isSubtypeOf := by
  funext d base
  rw [isSubtypeOf, h.hierarchy, Project.isSubtypeOf]

end Answers

end Index

/-! ## Fields -/

/-- The declarations of a list that stand directly in the one with this identifier. -/
def childrenIn (ds : List Declaration) (id : DeclarationId) : List Declaration :=
  ds.filter fun d => d.parent.any fun parent => parent.same id

/-- What a child contributes to the fields of its parent: a field itself, a companion object its own
fields. -/
def fieldsThrough (ds : List Declaration) (child : Declaration) : List Declaration :=
  match child.kind with
  | .field => [child]
  | .companionObject => (childrenIn ds child.id).filter fun d => d.kind == .field
  | _ => []

/-- The fields of a type in a list of declarations, those of its companion objects in their
places. -/
def fieldsIn (ds : List Declaration) (owner : DeclarationId) : List Declaration :=
  (childrenIn ds owner).flatMap (fieldsThrough ds)

/-- A companion object that is **its own parent**, and so has its fields twice, if it has fields. -/
def OwnsTwice (ds : List Declaration) (owner : DeclarationId) : Prop :=
  (∃ c ∈ childrenIn ds owner, c.kind = .companionObject ∧ c.id.same owner = true) ∧
    ∃ f ∈ childrenIn ds owner, f.kind = .field

instance (ds : List Declaration) (owner : DeclarationId) : Decidable (OwnsTwice ds owner) :=
  inferInstanceAs (Decidable (_ ∧ _))

section Fields

variable {ds : List Declaration} {d e x : Declaration} {id id' owner : DeclarationId}

theorem mem_childrenIn_iff :
    d ∈ childrenIn ds id ↔ d ∈ ds ∧ ∃ parent, d.parent = some parent ∧ parent.same id = true := by
  rw [childrenIn, List.mem_filter, Option.any_eq_true]

/-- A declaration stands in one other at most. -/
theorem same_of_mem_childrenIn (h : d ∈ childrenIn ds id) (h' : d ∈ childrenIn ds id') :
    id.same id' = true := by
  obtain ⟨-, parent, hparent, hsame⟩ := mem_childrenIn_iff.mp h
  obtain ⟨-, parent', hparent', hsame'⟩ := mem_childrenIn_iff.mp h'
  rw [hparent] at hparent'
  cases hparent'
  exact DeclarationId.same_trans (DeclarationId.same_symm hsame) hsame'

theorem mem_childrenIn_of_same (h : d ∈ childrenIn ds id) (hsame : id.same id' = true) :
    d ∈ childrenIn ds id' := by
  obtain ⟨hd, parent, hparent, hid⟩ := mem_childrenIn_iff.mp h
  exact mem_childrenIn_iff.mpr ⟨hd, parent, hparent, DeclarationId.same_trans hid hsame⟩

theorem mem_fieldsThrough_iff :
    x ∈ fieldsThrough ds d ↔
      x.kind = .field ∧ (x = d ∨ d.kind = .companionObject ∧ x ∈ childrenIn ds d.id) := by
  unfold fieldsThrough
  split
  · next hd =>
    rw [List.mem_singleton]
    exact ⟨fun hx => ⟨hx ▸ hd, .inl hx⟩, fun hx => hx.2.resolve_right fun hc => by simp [hd] at hc⟩
  · next hd =>
    rw [List.mem_filter, beq_iff_eq]
    refine ⟨fun hx => ⟨hx.2, .inr ⟨hd, hx.1⟩⟩, fun ⟨hx, hor⟩ => ⟨?_, hx⟩⟩
    rcases hor with rfl | ⟨-, hmem⟩
    · rw [hd] at hx
      cases hx
    · exact hmem
  · next hfield hcompanion =>
    refine ⟨fun hx => absurd hx List.not_mem_nil, fun ⟨hx, hor⟩ => ?_⟩
    rcases hor with rfl | ⟨hd, -⟩
    · exact absurd hx hfield
    · exact absurd hd hcompanion

end Fields

namespace Project

variable {p : Project} {d e x : Declaration} {owner : DeclarationId}

/-- A field that two children contribute is contributed by a companion object that is its own
parent. -/
theorem Distinct.ownsTwice_of_overlap (hp : p.Distinct) (hd : d ∈ childrenIn p.added owner)
    (he : e ∈ childrenIn p.added owner) (hne : d ≠ e) (hxd : x ∈ fieldsThrough p.added d)
    (hxe : x ∈ fieldsThrough p.added e) : OwnsTwice p.added owner := by
  -- a field that stands in a companion object as well as beside it
  have hbeside : ∀ c ∈ childrenIn p.added owner, c.kind = .companionObject →
      x ∈ childrenIn p.added c.id → x ∈ childrenIn p.added owner → x.kind = .field →
      OwnsTwice p.added owner :=
    fun c hc hkind hin hx hfield =>
      ⟨⟨c, hc, hkind, same_of_mem_childrenIn hin hx⟩, x, hx, hfield⟩
  obtain ⟨hfield, hxd⟩ := mem_fieldsThrough_iff.mp hxd
  obtain ⟨-, hxe⟩ := mem_fieldsThrough_iff.mp hxe
  rcases hxd with rfl | ⟨hkind, hind⟩ <;> rcases hxe with rfl | ⟨hkind', hine⟩
  · exact absurd rfl hne
  · exact hbeside e he hkind' hine hd hfield
  · exact hbeside d hd hkind hind he hfield
  · have hmem := (mem_childrenIn_iff.mp hd).1
    have hmem' := (mem_childrenIn_iff.mp he).1
    exact absurd (hp.eq_of_same hmem hmem' (same_of_mem_childrenIn hind hine)) hne

theorem Distinct.nodup_fieldsThrough (hp : p.Distinct) (d : Declaration) :
    (fieldsThrough p.added d).Nodup := by
  unfold fieldsThrough
  split
  · exact List.nodup_singleton d
  · exact (hp.nodup.filter _).filter _
  · exact List.nodup_nil

/-- **When a field occurs twice.** -/
theorem Distinct.nodup_fieldsIn_iff (hp : p.Distinct) :
    (fieldsIn p.added owner).Nodup ↔ ¬OwnsTwice p.added owner := by
  have hchildren : (childrenIn p.added owner).Nodup := hp.nodup.filter _
  rw [fieldsIn, List.nodup_flatMap]
  constructor
  · rintro ⟨-, hdisjoint⟩ ⟨⟨c, hc, hkind, hsame⟩, f, hf, hfield⟩
    have hsymm : Std.Symm (Function.onFun List.Disjoint (fieldsThrough p.added)) :=
      ⟨fun _ _ h _ hx hx' => h hx' hx⟩
    have hne : c ≠ f := by
      rintro rfl
      rw [hkind] at hfield
      cases hfield
    -- the field is contributed by itself and by the companion object
    refine hdisjoint.forall hc hf hne (mem_fieldsThrough_iff.mpr ⟨hfield, .inr ⟨hkind, ?_⟩⟩)
      (mem_fieldsThrough_iff.mpr ⟨hfield, .inl rfl⟩)
    exact mem_childrenIn_of_same hf (DeclarationId.same_symm hsame)
  · intro hnot
    refine ⟨fun d _ => hp.nodup_fieldsThrough d,
      hchildren.imp_of_mem fun {d e} hd he hne x hxd hxe => ?_⟩
    exact hnot (hp.ownsTwice_of_overlap hd he hne hxd hxe)

theorem Distinct.fieldsOf_eq (hp : p.Distinct) (o : Declaration) :
    p.fieldsOf o = fieldsIn p.added o.id := by
  rw [fieldsOf, hp.children_eq]
  refine List.flatMap_congr fun child _ => ?_
  cases hkind : child.kind <;> simp only [fieldsThrough, hkind, hp.children_eq, childrenIn]

end Project

/-! ## Chains of parents -/

/-- One declaration **stands in** another one of a list. -/
def IsParentIn (ds : List Declaration) (inner outer : Declaration) : Prop :=
  outer ∈ ds ∧ ∃ id, inner.parent = some id ∧ outer.id.same id = true

/-- No declaration of a list is its own ancestor. -/
def ParentsAcyclic (ds : List Declaration) : Prop := ∀ d ∈ ds, ¬TransGen (IsParentIn ds) d d

/-- A declaration with its parent, the parent of that one and so on, up to one that has no parent in
the list. -/
inductive ParentChain (ds : List Declaration) : Declaration → List Declaration → Prop
  | outermost {d : Declaration} (hd : ∀ e, ¬IsParentIn ds d e) : ParentChain ds d [d]
  | inner {d e : Declaration} {chain : List Declaration} (hd : IsParentIn ds d e)
      (hchain : ParentChain ds e chain) : ParentChain ds d (d :: chain)

section Chains

variable {ds : List Declaration} {d : Declaration}

/-- A rank that grows from child to parent rules out cycles. -/
theorem parentsAcyclic_of_rank (rank : Declaration → Nat)
    (h : ∀ d ∈ ds, ∀ e, IsParentIn ds d e → rank d < rank e) : ParentsAcyclic ds := by
  have hlt : ∀ d e, TransGen (IsParentIn ds) d e → d ∈ ds → rank d < rank e := by
    intro d e hde
    induction hde using TransGen.head_induction_on with
    | single hstep => exact fun hd => h _ hd _ hstep
    | head hstep _ ih => exact fun hd => (h _ hd _ hstep).trans (ih hstep.1)
  exact fun d hd hcycle => Nat.lt_irrefl _ (hlt d d hcycle hd)

/-- A chain of parents that is not closed has no more members than there are declarations. -/
theorem ParentsAcyclic.length_le (h : ParentsAcyclic ds) {l : List Declaration}
    (hchain : List.IsChain (IsParentIn ds) (d :: l)) : l.length ≤ ds.length := by
  have hsubset : l ⊆ ds := subset_of_isChain (fun _ _ hparent => hparent.1) hchain
  have hnodup : l.Nodup := by
    have hancestors : l.Pairwise (TransGen (IsParentIn ds)) :=
      (hchain.tail.imp fun _ _ => TransGen.single).pairwise
    refine hancestors.imp_of_mem fun {a b} ha _ hab heq => ?_
    subst heq
    exact h a (hsubset ha) hab
  exact (List.subperm_of_subset hnodup hsubset).length_le

end Chains

namespace Project

variable {p : Project} {d e : Declaration}

theorem Distinct.parentOf?_eq_some_iff (hp : p.Distinct) :
    p.parentOf? d = some e ↔ IsParentIn p.added d e := by
  rw [parentOf?, Option.bind_eq_some_iff]
  constructor
  · rintro ⟨id, hid, hfind⟩
    obtain ⟨he, hsame⟩ := hp.find?_eq_some_iff.mp hfind
    exact ⟨he, id, hid, hsame⟩
  · rintro ⟨he, id, hid, hsame⟩
    exact ⟨id, hid, hp.find?_eq_some_iff.mpr ⟨he, hsame⟩⟩

theorem Distinct.parentOf?_eq_none_iff (hp : p.Distinct) :
    p.parentOf? d = none ↔ ∀ e, ¬IsParentIn p.added d e := by
  rw [Option.eq_none_iff_forall_ne_some]
  exact forall_congr' fun e => not_congr hp.parentOf?_eq_some_iff

/-- A walk of `n` steps reaches the end of the chain, or there is a longer chain. -/
theorem Distinct.parentChain_climb (hp : p.Distinct) (n : Nat) (d : Declaration) :
    ParentChain p.added d (ancestry.climb p n d) ∨
      ∃ l, List.IsChain (IsParentIn p.added) (d :: l) ∧ l.length = n + 1 := by
  induction n generalizing d with
  | zero =>
    cases hparent : p.parentOf? d with
    | none => exact .inl (.outermost (hp.parentOf?_eq_none_iff.mp hparent))
    | some e =>
      exact .inr ⟨[e], .cons_cons (hp.parentOf?_eq_some_iff.mp hparent) (.singleton e), rfl⟩
  | succ n ih =>
    cases hparent : p.parentOf? d with
    | none =>
      rw [climb_of_parentOf?_eq_none hparent]
      exact .inl (.outermost (hp.parentOf?_eq_none_iff.mp hparent))
    | some e =>
      have hstep := hp.parentOf?_eq_some_iff.mp hparent
      rw [climb_of_parentOf?_eq_some hparent]
      rcases ih e with hchain | ⟨l, hchain, hlength⟩
      · exact .inl (.inner hstep hchain)
      · exact .inr ⟨e :: l, .cons_cons hstep hchain, congrArg (· + 1) hlength⟩

/-- **The search outwards ends where no parent is left.** -/
theorem Distinct.parentChain_ancestry (hp : p.Distinct) (hacyclic : ParentsAcyclic p.added)
    (d : Declaration) : ParentChain p.added d (p.ancestry d) := by
  refine (hp.parentChain_climb p.added.length d).resolve_right ?_
  rintro ⟨l, hchain, hlength⟩
  have hle := hacyclic.length_le hchain
  omega

end Project

/-! ## Scans -/

/-- The first field of a name that a type has in a list of declarations. -/
def fieldIn? (ds : List Declaration) (name : String) (owner : Declaration) : Option Declaration :=
  if owner.isType then (fieldsIn ds owner.id).find? fun f => f.name == name else none

/-- The first field of a name in a file that has no parent. -/
def topFieldIn? (ds : List Declaration) (name : String) (file : Path) : Option Declaration :=
  ds.find? fun d => d.location.file.same file &&
    (d.kind == .field && d.parent.isNone && d.name == name)

namespace Project

variable {p : Project}

/-- A name without a dot is searched along the chain of parents, and then in the file. -/
theorem Distinct.findField?_eq_scan (hp : p.Distinct) (scope : Declaration) {name : String}
    (hname : '.' ∉ name.toList) :
    p.findField? (some scope) name =
      ((p.ancestry scope).findSome? (fieldIn? p.added name)).or
        (topFieldIn? p.added name scope.location.file) := by
  have hcut : Text.cutAtLast? '.' name.toList = none := if_neg (by simpa using hname)
  have hmember : (fun d => p.memberField? d name) = fieldIn? p.added name := by
    funext d
    rw [memberField?, fieldIn?, hp.fieldsOf_eq]
  have htop :
      p.topLevelField? scope.location.file name = topFieldIn? p.added name scope.location.file := by
    rw [topLevelField?, topFieldIn?, inFile, hp.current_filter, List.find?_filter]
    simp only [Bool.decide_and, Bool.decide_eq_true]
  rw [← hmember, ← htop, findField?, hcut]
  rfl

end Project

/-- **The answers of indexes and projects are scans** of the declarations that were added, if their
identifiers are distinct. This holds for all declarations, for the types of a name, for what stands
in a declaration and for what a file contains. The fields of a type are its children, with each
companion object replaced by its own fields; none occurs twice unless the type is a companion object
that is its own parent. If no declaration is its own ancestor, a name is found in the innermost type
of the chain of parents that has a field of that name, or else among the fields of the file. -/
theorem index_agrees_with_scans {ds : List Declaration}
    (hdistinct : ds.Pairwise fun a b => a.id.same b.id = false) :
    let p := ds.foldl Project.addDeclaration {}
    let ix := ds.foldl Index.add {}
    (p.declarations = ds ∧ ix.declarations = ds) ∧
      (∀ name, p.typesNamed name = ds.filter (fun d => d.isType && d.name == name) ∧
        ix.typesNamed name = p.typesNamed name) ∧
      (∀ id, p.children id = childrenIn ds id ∧ ix.childrenOf id = p.children id) ∧
      (∀ file, p.inFile file = ds.filter (fun d => d.location.file.same file) ∧
        ix.inFile file = p.inFile file) ∧
      (∀ l, (p.enclosing l).Perm
        (ds.filter fun d => d.location.file.same l.file && d.location.contains l)) ∧
      (∀ o, p.fieldsOf o = fieldsIn ds o.id ∧ ((p.fieldsOf o).Nodup ↔ ¬OwnsTwice ds o.id)) ∧
      (ParentsAcyclic ds → ∀ scope name, '.' ∉ name.toList →
        ∃ chain, ParentChain ds scope chain ∧
          p.findField? (some scope) name =
            (chain.findSome? (fieldIn? ds name)).or (topFieldIn? ds name scope.location.file)) := by
  intro p ix
  have hadded : p.added = ds := Project.added_foldl {} ds
  have hp : p.Distinct := by
    rw [Project.Distinct, hadded]
    exact hdistinct
  have hix : ix.Reflects p := Index.reflects_empty.foldl ds
  clear_value p ix
  subst hadded
  refine ⟨⟨hp.declarations_eq, hix.declarations_eq.trans hp.declarations_eq⟩,
    fun name => ⟨hp.current_filter _, hix.typesNamed_eq name⟩,
    fun id => ⟨hp.children_eq id, hix.childrenOf_eq id⟩,
    fun file => ⟨hp.current_filter _, hix.inFile_eq file⟩, fun l => ?_, fun o => ?_, ?_⟩
  · rw [Project.enclosing, Project.inFile, hp.current_filter, List.filter_filter]
    exact (List.mergeSort_perm _ _).trans (.of_eq (List.filter_congr fun d _ => Bool.and_comm _ _))
  · rw [hp.fieldsOf_eq]
    exact ⟨rfl, hp.nodup_fieldsIn_iff⟩
  · intro hacyclic scope name hname
    exact ⟨p.ancestry scope, hp.parentChain_ancestry hacyclic scope,
      hp.findField?_eq_scan scope hname⟩

/-- A declaration on a range of a file, in the one on another range. -/
def onRange (name : String) (kind : DeclarationKind) (start stop : Nat)
    (parent : Option (Nat × Nat)) :
    Declaration where
  id := ⟨⟨"src/A.kt"⟩, start, stop⟩
  name := name
  kind := kind
  location := ⟨⟨"src/A.kt"⟩, 1, start + 1, start, stop⟩
  language := .kotlin
  parent := parent.map fun range => ⟨⟨"src//A.kt"⟩, range.1, range.2⟩

/-- A class whose members are added before it, and those of its companion object before that. -/
def membersFirst : List Declaration :=
  [onRange "X" .field 30 40 (some (20, 50)), onRange "y" .field 60 70 (some (0, 100)),
    onRange "Companion" .companionObject 20 50 (some (0, 100)),
    onRange "Outer" .classType 0 100 none, onRange "z" .field 110 120 none]

theorem distinct_membersFirst : membersFirst.Pairwise fun a b => a.id.same b.id = false := by
  decide +kernel

theorem parentsAcyclic_membersFirst : ParentsAcyclic membersFirst := by
  have hlonger : ∀ d ∈ membersFirst, ∀ e ∈ membersFirst, ∀ id ∈ d.parent, e.id.same id = true →
      d.id.length < e.id.length := by decide +kernel
  refine parentsAcyclic_of_rank (fun d => d.id.length) fun d hd e he => ?_
  obtain ⟨hmem, id, hid, hsame⟩ := he
  exact hlonger d hd e hmem id hid hsame

theorem index_agrees_with_scans_membersFirst :
    (membersFirst.Pairwise fun a b => a.id.same b.id = false) ∧
      ((membersFirst.foldl Project.addDeclaration {}).fieldsOf
        (onRange "Outer" .classType 0 100 none)).map Declaration.name = ["y", "X"] ∧
      ((membersFirst.foldl Project.addDeclaration {}).fieldsOf
        (onRange "Outer" .classType 0 100 none)).Nodup ∧
      ∃ chain, ParentChain membersFirst (onRange "X" .field 30 40 (some (20, 50))) chain ∧
        (membersFirst.foldl Project.addDeclaration {}).findField?
            (some (onRange "X" .field 30 40 (some (20, 50)))) "z" =
          (chain.findSome? (fieldIn? membersFirst "z")).or
            (topFieldIn? membersFirst "z" ⟨"src/A.kt"⟩) := by
  obtain ⟨-, -, -, -, -, hfields, hsearch⟩ := index_agrees_with_scans distinct_membersFirst
  obtain ⟨hscan, hnodup⟩ := hfields (onRange "Outer" .classType 0 100 none)
  refine ⟨distinct_membersFirst, ?_, hnodup.mpr (by decide +kernel),
    hsearch parentsAcyclic_membersFirst _ "z" (by decide)⟩
  rw [hscan]
  decide +kernel

/-- A companion object that is its own parent, with a field. -/
def selfOwned : List Declaration :=
  [onRange "Companion" .companionObject 0 40 (some (0, 40)),
    onRange "x" .field 10 20 (some (0, 40))]

/-- **A companion object that is its own parent has its fields twice,** though all identifiers are
distinct. -/
theorem self_owned_companion_repeats_field :
    (selfOwned.Pairwise fun a b => a.id.same b.id = false) ∧
      ((selfOwned.foldl Project.addDeclaration {}).fieldsOf
        (onRange "Companion" .companionObject 0 40 (some (0, 40)))).map Declaration.name =
          ["x", "x"] ∧
      ¬((selfOwned.foldl Project.addDeclaration {}).fieldsOf
        (onRange "Companion" .companionObject 0 40 (some (0, 40)))).Nodup := by
  have hp : (selfOwned.foldl Project.addDeclaration {}).Distinct := by
    unfold Project.Distinct
    decide +kernel
  refine ⟨by decide +kernel, by decide +kernel, ?_⟩
  rw [hp.fieldsOf_eq, hp.nodup_fieldsIn_iff, not_not]
  decide +kernel

end AdLint
