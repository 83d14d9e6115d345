import AdLint.Project.Basic

/-!
# The record of a project

Every answer of a project is read off the record of its declarations through `Project.find?`, which
picks the entry added last under an identifier. Identifiers compare by the components of their
files, so two that differ as texts may be one; `Project.find?` does not tell such identifiers apart.

A declaration is current when it is what its own identifier finds. All answers consist of current
declarations, and a current declaration stands in the record.

## Main results

* `DeclarationId.same_iff`: when two identifiers are one
* `Project.find?_congr`: identifiers that are one find the same declaration
* `Project.find?_of_mem_current`: answers consist of current declarations
* `Project.mem_declarations_iff`: the declarations of a project are the current ones
-/

namespace AdLint

/-! ## Paths and identifiers that are one -/

theorem Path.same_iff {p q : Path} : p.same q = true ↔ p.components = q.components := by
  rw [Path.same, beq_iff_eq]

@[simp] theorem Path.same_refl (p : Path) : p.same p = true := Path.same_iff.mpr rfl

theorem DeclarationId.same_iff {a b : DeclarationId} :
    a.same b = true ↔
      a.file.components = b.file.components ∧ a.start = b.start ∧ a.stop = b.stop := by
  rw [DeclarationId.same, Bool.and_eq_true, Bool.and_eq_true, Path.same_iff, beq_iff_eq, beq_iff_eq,
    and_assoc]

@[simp] theorem DeclarationId.same_refl (a : DeclarationId) : a.same a = true :=
  DeclarationId.same_iff.mpr ⟨rfl, rfl, rfl⟩

theorem DeclarationId.same_symm {a b : DeclarationId} (h : a.same b) : b.same a := by
  rw [DeclarationId.same_iff] at h ⊢
  exact ⟨h.1.symm, h.2.1.symm, h.2.2.symm⟩

theorem DeclarationId.same_trans {a b c : DeclarationId} (hab : a.same b) (hbc : b.same c) :
    a.same c := by
  rw [DeclarationId.same_iff] at hab hbc ⊢
  exact ⟨hab.1.trans hbc.1, hab.2.1.trans hbc.2.1, hab.2.2.trans hbc.2.2⟩

theorem DeclarationId.same_congr {a b : DeclarationId} (h : a.same b) (c : DeclarationId) :
    c.same a = c.same b :=
  Bool.eq_iff_iff.mpr
    ⟨fun hc => same_trans hc h, fun hc => same_trans hc (same_symm h)⟩

/-! ## Elements without those that repeat an earlier one -/

section DistinctBy

variable {α : Type} (same : α → α → Bool)

/-- Of every element, one that it repeats is kept. -/
theorem exists_mem_distinctBy (hrefl : ∀ a, same a a = true)
    (htrans : ∀ a b c, same a b = true → same b c = true → same a c = true) {xs : List α} {x : α}
    (hx : x ∈ xs) : ∃ y ∈ distinctBy same xs, same y x = true := by
  induction xs with
  | nil => exact absurd hx (by simp)
  | cons z xs ih =>
    rcases List.mem_cons.mp hx with rfl | hx
    · exact ⟨x, List.mem_cons_self, hrefl x⟩
    · obtain ⟨y, hy, hyx⟩ := ih hx
      -- if `z` drops `y`, then `z` stands for `x` as well
      by_cases hzy : same z y = true
      · exact ⟨z, List.mem_cons_self, htrans z y x hzy hyx⟩
      · exact ⟨y, List.mem_cons_of_mem z (List.mem_filter.mpr ⟨hy, by simp [hzy]⟩), hyx⟩

/-- Where nothing repeats, all is kept. -/
theorem distinctBy_of_pairwise {xs : List α} (h : xs.Pairwise fun a b => same a b = false) :
    distinctBy same xs = xs := by
  induction h with
  | nil => rfl
  | @cons x xs hx _ ih =>
    rw [distinctBy, ih, List.filter_eq_self.mpr fun y hy => by rw [hx y hy]; rfl]

theorem distinctBy_sublist (xs : List α) : (distinctBy same xs).Sublist xs := by
  induction xs with
  | nil => exact List.Sublist.refl []
  | cons x xs ih => exact (List.filter_sublist.trans ih).cons_cons x

/-- Nothing that is kept repeats an earlier element. -/
theorem pairwise_distinctBy (xs : List α) :
    (distinctBy same xs).Pairwise fun a b => same a b = false := by
  induction xs with
  | nil => exact List.Pairwise.nil
  | cons x xs ih =>
    refine List.pairwise_cons.mpr ⟨fun y hy => ?_, ih.filter _⟩
    simpa using (List.mem_filter.mp hy).2

end DistinctBy

/-! ## Current declarations -/

namespace Project

variable {p : Project} {d : Declaration} {id : DeclarationId}

theorem find?_congr {a b : DeclarationId} (h : a.same b) : p.find? a = p.find? b := by
  unfold find?
  congr 1
  funext d
  exact DeclarationId.same_congr h d.id

theorem mem_added_of_find? (h : p.find? id = some d) : d ∈ p.added :=
  List.mem_reverse.mp (List.mem_of_find?_eq_some h)

theorem same_of_find? (h : p.find? id = some d) : d.id.same id := by
  have hsame := List.find?_some h
  exact hsame

/-- What an identifier finds is what its own identifier finds. -/
theorem find?_self_of_find? (h : p.find? id = some d) : p.find? d.id = some d := by
  rw [find?_congr (same_of_find? h), h]

theorem mem_current {entries : List Declaration} :
    d ∈ p.current entries ↔ ∃ e ∈ entries, p.find? e.id = some d := by
  simp only [current, List.mem_filterMap]

theorem find?_of_mem_current {entries : List Declaration} (h : d ∈ p.current entries) :
    p.find? d.id = some d := by
  obtain ⟨e, -, he⟩ := mem_current.mp h
  exact find?_self_of_find? he

theorem find?_of_mem_declarations (h : d ∈ p.declarations) : p.find? d.id = some d :=
  find?_of_mem_current h

theorem find?_of_mem_types (h : d ∈ p.types) : p.find? d.id = some d :=
  find?_of_mem_declarations (List.mem_filter.mp h).1

theorem find?_of_mem_children (h : d ∈ p.children id) : p.find? d.id = some d :=
  find?_of_mem_current h

/-- The declarations of a project are the current ones. -/
theorem mem_declarations_iff : d ∈ p.declarations ↔ p.find? d.id = some d := by
  refine ⟨find?_of_mem_declarations, fun h => mem_current.mpr ?_⟩
  -- the first entry with the identifier of `d` is kept, and it stands for `d`
  obtain ⟨e, he, hsame⟩ := exists_mem_distinctBy (fun a b : Declaration => a.id.same b.id)
    (fun a => DeclarationId.same_refl a.id) (fun _ _ _ => DeclarationId.same_trans)
    (mem_added_of_find? h)
  exact ⟨e, he, by rw [find?_congr hsame, h]⟩

end Project

end AdLint
