import AdLint.Baseline
import AdLint.Proofs.FileChange
import AdLint.Proofs.JsonRoundTrip

/-!
# Saved baselines

A baseline that is saved and loaded again is the baseline it was: its entries are written as JSON,
read back as JSON, and taken apart into the same entries in the same order. The version has to be
the one that is written today, and a line has to be a number that fits into a machine word, since
the reader takes no larger one.

## Main definitions

* `Baseline.LinesFit`: the lines of all entries fit into a machine word

## Main results

* `Baseline.entry?_toJson`, `Baseline.ofJson?_toJson`: values are taken apart again
* `Baseline.parse?_written`: the text of a baseline writes the baseline
* `Baseline.load_of_read`: a file with that text holds the baseline
* `Baseline.load_save`: a baseline that was saved is loaded again
-/

namespace AdLint

namespace Json

theorem readableItems_of_forall {depth : Nat} {items : List Json}
    (h : ∀ item ∈ items, item.Readable depth) : ReadableItems depth items := by
  induction items with
  | nil => trivial
  | cons item items ih =>
    exact ⟨h item List.mem_cons_self, ih fun other hother =>
      h other (List.mem_cons_of_mem _ hother)⟩

theorem readable_count (depth n : Nat) : (count n).Readable depth := ⟨n, rfl⟩

end Json

namespace Baseline

/-- The lines of all entries fit into a machine word. -/
def LinesFit (b : Baseline) : Prop := ∀ e ∈ b.entries, ∀ line ∈ e.line, line < Nat.pow 2 64

theorem readable_entry (depth : Nat) (e : BaselineEntry) : e.toJson.Readable (depth + 1) := by
  refine ⟨Nat.succ_pos depth, trivial, trivial, trivial, trivial, ?_⟩
  cases e.line with
  | none => trivial
  | some line => exact ⟨Json.readable_count _ line, trivial⟩

/-- The value of a baseline can be read back. -/
theorem readable_toJson (b : Baseline) : b.toJson.Readable 127 := by
  refine ⟨by decide, Json.readable_count _ _, ⟨by decide, ?_⟩, trivial⟩
  refine Json.readableItems_of_forall fun item hitem => ?_
  obtain ⟨e, -, rfl⟩ := List.mem_map.mp hitem
  exact readable_entry _ e

theorem natBelow?_count {bound n : Nat} (h : n < bound) :
    natBelow? bound (Json.count n) = some n := by
  have htext : (toString n).toList = Nat.toDigits 10 n := by
    rw [Nat.toString_eq_repr, Nat.toList_repr]
  have hdigits : (Nat.toDigits 10 n).all Char.isDigit = true := by
    rw [List.all_eq_true]
    exact fun c hc => Nat.isDigit_of_mem_toDigits (by omega) (by omega) hc
  have hvalue : (Nat.toDigits 10 n).foldl (fun n c => n * 10 + (c.toNat - '0'.toNat)) 0 = n := by
    simp only [Nat.mul_comm _ 10]
    exact Nat.ofDigitChars_toDigits (by omega) (by omega)
  rw [Json.count, natBelow?, htext, hvalue, hdigits, Bool.true_and, if_pos (by simpa using h)]

theorem entry?_toJson {e : BaselineEntry} (h : ∀ line ∈ e.line, line < Nat.pow 2 64) :
    entry? e.toJson = some e := by
  obtain ⟨key, line⟩ := e
  cases line with
  | none => rfl
  | some line =>
    have hline : line? (Json.count line) = some (some line) := by
      rw [Json.count, line?, ← Json.count, natBelow?_count (h line rfl), Option.map_some]
      exact Json.noConfusion
    have hentry : entry? (BaselineEntry.toJson ⟨key, some line⟩) =
        (line? (Json.count line)).bind fun line => some ⟨key, line⟩ := rfl
    rw [hentry, hline, Option.bind_some]

/-- Entries are taken apart in their order. -/
theorem entries?_toJson {entries : List BaselineEntry}
    (h : ∀ e ∈ entries, ∀ line ∈ e.line, line < Nat.pow 2 64) :
    entries? (.array (entries.map BaselineEntry.toJson)) = some entries := by
  rw [entries?]
  induction entries with
  | nil => rfl
  | cons e entries ih =>
    have hfirst := entry?_toJson (h e List.mem_cons_self)
    have hrest := ih fun other hother => h other (List.mem_cons_of_mem _ hother)
    rw [List.map_cons, List.mapM_cons, hfirst, hrest]
    rfl

/-- The value of a baseline is taken apart into the baseline again. -/
theorem ofJson?_toJson {b : Baseline} (hversion : b.version < Nat.pow 2 32) (hlines : b.LinesFit) :
    ofJson? b.toJson = some b := by
  have hentries := entries?_toJson hlines
  have hvalue : ofJson? b.toJson =
      (natBelow? (Nat.pow 2 32) (Json.count b.version)).bind fun version =>
        (entries? (.array (b.entries.map BaselineEntry.toJson))).bind fun entries =>
          some ⟨version, entries⟩ := rfl
  rw [hvalue, natBelow?_count hversion, hentries, Option.bind_some, Option.bind_some]

/-- **The text of a baseline writes the baseline.** -/
theorem parse?_written {b : Baseline} (hversion : b.version < Nat.pow 2 32) (hlines : b.LinesFit) :
    parse? b.written = some b := by
  rw [parse?, written, Json.parse?_pretty b.readable_toJson, Option.bind_some,
    ofJson?_toJson hversion hlines]

theorem load_of_read {b : Baseline} (hversion : b.version = currentVersion) (hlines : b.LinesFit)
    {t : FileTree} {path : Path} (hread : t.read path = .ok b.written) : load t path = .ok b := by
  have hsmall : b.version < Nat.pow 2 32 := by
    rw [hversion]
    decide
  rw [load, hread]
  dsimp only
  rw [parse?_written hsmall hlines]
  dsimp only
  rw [if_pos (by rw [hversion]; rfl)]

theorem write_of_save {b : Baseline} {t u : FileTree} {path : Path}
    (hsave : b.save t path = .ok u) :
    t.write path b.written = .ok u := by
  unfold save at hsave
  cases hwrite : t.write path b.written with
  | error e =>
    rw [hwrite] at hsave
    cases hsave
  | ok v =>
    rw [hwrite] at hsave
    cases hsave
    rfl

theorem read_of_save {b : Baseline} {t u : FileTree} {path : Path} (hsave : b.save t path = .ok u) :
    u.read path = .ok b.written := by
  obtain ⟨-, -, -, -, hread⟩ := FileTree.write_ok (write_of_save hsave)
  exact hread

/-- A baseline that is saved is loaded again, with the same entries in the same order. Any file that
holds its text will do. -/
theorem load_save (b : Baseline) (hversion : b.version = currentVersion) (hlines : b.LinesFit) :
    (∀ t path, t.read path = .ok b.written → load t path = .ok b) ∧
      ∀ t u path, b.save t path = .ok u → load u path = .ok b :=
  ⟨fun _ _ hread => load_of_read hversion hlines hread,
    fun _ _ _ hsave => load_of_read hversion hlines (read_of_save hsave)⟩

/-- A baseline with an entry of every kind: texts with quotes, backslashes and control characters,
and the largest line there is. -/
def awkward : Baseline :=
  { version := currentVersion
    entries :=
      [ { key :=
            { rule := "BC001"
              file := "a\\b\"c"
              subject := "\x00\t\n\x1f"
              message := "π/\x7f" }
          line := some (Nat.pow 2 64 - 1) },
        { key := { rule := "", file := "", subject := "", message := "" } } ] }

theorem load_save_awkward :
    awkward.version = currentVersion ∧ awkward.LinesFit ∧
      ∃ u, awkward.save { top := .directory [], here := [] } ⟨"base.json"⟩ = .ok u ∧
        load u ⟨"base.json"⟩ = .ok awkward := by
  have hlines : awkward.LinesFit := by simp [LinesFit, awkward]
  obtain ⟨u, hsave⟩ :
      ∃ u, awkward.save { top := .directory [], here := [] } ⟨"base.json"⟩ = .ok u :=
    ⟨_, rfl⟩
  exact ⟨rfl, hlines, u, hsave, (load_save awkward rfl hlines).2 _ u _ hsave⟩

end Baseline

end AdLint
