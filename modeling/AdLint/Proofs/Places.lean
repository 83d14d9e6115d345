import AdLint.Source.Place
import AdLint.Text.Blank
import Mathlib.Data.List.Induction
import Mathlib.Data.String.Basic

/-!
# What a place counts

A place moves along a text character by character. What it has counted then is said by the
characters behind it: its byte is the number of their bytes, its line is the number of line feeds
among them, and its column is the number of bytes since the last line feed.

## Main results

* `Place.start_advanceAll`: what the place behind some characters counts
* `Source.slice_eq`: the text between the places before and behind some characters
-/

namespace AdLint

namespace Place

theorem byte_advance (p : Place) (c : Char) : (p.advance c).byte = p.byte + c.utf8Size := by
  rw [advance]
  split
  · next h => rw [beq_iff_eq.mp h]; rfl
  · rfl

theorem byte_advanceAll (p : Place) (cs : List Char) :
    (p.advanceAll cs).byte = p.byte + String.utf8Len cs := by
  induction cs generalizing p with
  | nil => rfl
  | cons c cs ih =>
    show ((p.advance c).advanceAll cs).byte = _
    rw [ih, byte_advance, String.utf8Len_cons]
    omega

theorem advanceAll_append (p : Place) (cs ds : List Char) :
    p.advanceAll (cs ++ ds) = (p.advanceAll cs).advanceAll ds :=
  List.foldl_append

/-- One more character is behind the last line feed, unless it is one. -/
theorem afterLast_append_singleton (cs : List Char) (c : Char) :
    Text.afterLast '\n' (cs ++ [c]) = if c = '\n' then [] else Text.afterLast '\n' cs ++ [c] := by
  rw [Text.afterLast, List.reverse_append, List.reverse_singleton, List.singleton_append]
  by_cases hc : c = '\n'
  · simp [hc]
  · simp [hc, Text.afterLast]

/-- **What the place behind some characters counts.** -/
theorem start_advanceAll (cs : List Char) :
    start.advanceAll cs =
      ⟨String.utf8Len cs, cs.count '\n' + 1, String.utf8Len (Text.afterLast '\n' cs) + 1⟩ := by
  induction cs using List.reverseRecOn with
  | nil => rfl
  | append_singleton cs c ih =>
    have hbytes : String.utf8Len (cs ++ [c]) = String.utf8Len cs + c.utf8Size := by simp
    rw [advanceAll_append, ih, afterLast_append_singleton, hbytes, List.count_append,
      List.count_singleton]
    show advance _ c = _
    rw [advance]
    by_cases hc : c = '\n'
    · rw [if_pos (beq_iff_eq.mpr hc), if_pos (beq_iff_eq.mpr hc), if_pos hc, hc]
      rfl
    · have hcolumn : String.utf8Len (Text.afterLast '\n' cs ++ [c]) + 1 =
          String.utf8Len (Text.afterLast '\n' cs) + 1 + c.utf8Size := by
        simp only [String.utf8Len_append, String.utf8Len_cons, String.utf8Len_nil]
        omega
      rw [if_neg (mt beq_iff_eq.mp hc), if_neg (mt beq_iff_eq.mp hc), if_neg hc, hcolumn]

end Place

/-- The text on a span is what the span was taken for. -/
theorem Source.slice_eq {s : Source} {before cs after : List Char}
    (htext : s.text = String.ofList (before ++ (cs ++ after))) :
    s.slice ⟨Place.start.advanceAll before, (Place.start.advanceAll (before ++ cs)).byte⟩ =
      String.ofList cs := by
  have hbefore : (Place.start.advanceAll before).byte = String.utf8Len before := by
    rw [Place.byte_advanceAll]
    exact Nat.zero_add _
  have hstop : (Place.start.advanceAll (before ++ cs)).byte =
      String.utf8Len before + String.utf8Len cs := by
    rw [Place.advanceAll_append, Place.byte_advanceAll, hbefore]
  rw [slice, htext, hstop, hbefore, ← List.append_assoc]
  exact String.extract_of_valid before cs after

end AdLint
