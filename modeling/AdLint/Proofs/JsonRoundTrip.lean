import AdLint.Json.Reader
import Mathlib.Data.List.Basic

/-!
# Written values are read back

A value is written with quotes, escapes, commas and indentation, and the reader undoes all of it.
Two kinds of values are beyond it: those that nest too deep, and numbers that are not written as
numbers. The values that the reader can read are the `Readable` ones; the numbers among them are
counts.

The proof goes along the value. What stands after a written value is left open, so that the
statement for a value serves inside an array and an object too. A count is the only value that does
not show its own end, so what stands after it must not go on with a digit, a point or an exponent.
The reader is bounded by the length of the text. A value takes at least one character, and no more
than two steps are made for each.

## Main definitions

* `Readable depth j`: numbers are counts, and values nest at most `depth` deep
* `EndsNumber rest`: a number before `rest` ends there

## Main results

* `chars?_escape`: an escaped character is read back
* `text?_quote`, `number?_count`: texts and counts are read back
* `read?_prettyAt`: a value is read back, whatever stands after it
* `parse?_pretty_append`, `parse?_pretty`: a written value is read back
-/

namespace AdLint.Json

/-! ## Texts -/

theorem hexValue?_hexDigit : ∀ n < 16, hexValue? (hexDigit n) = some n := by decide

/-- A control character is written with four digits, of which the first two are zero. -/
theorem numbered?_control {c : Char} (hc : c.toNat < 0x20) (rest : List Char) :
    numbered? ('0' :: '0' :: hexDigit (c.toNat / 16) :: hexDigit c.toNat :: rest) =
      some (c, rest) := by
  have hhigh : hexValue? (hexDigit (c.toNat / 16)) = some (c.toNat / 16) :=
    hexValue?_hexDigit _ (by omega)
  have hlow : hexValue? (hexDigit c.toNat) = some (c.toNat % 16) := by
    have hmod : hexDigit c.toNat = hexDigit (c.toNat % 16) := by
      rw [hexDigit, hexDigit, Nat.mod_mod]
    rw [hmod]
    exact hexValue?_hexDigit _ (by omega)
  have hzero : hexValue? '0' = some 0 := rfl
  have hfour : fourHex? ('0' :: '0' :: hexDigit (c.toNat / 16) :: hexDigit c.toNat :: rest) =
      some (c.toNat, rest) := by
    simp only [fourHex?, hzero, hhigh, hlow, Option.bind_eq_bind, Option.bind_some,
      Option.some.injEq, Prod.mk.injEq, and_true]
    omega
  have hplain : ¬ (0xD800 ≤ c.toNat ∧ c.toNat < 0xDC00) := by omega
  have hplain' : ¬ (0xDC00 ≤ c.toNat ∧ c.toNat < 0xE000) := by omega
  simp only [numbered?, hfour, Option.bind_eq_bind, Option.bind_some, Bool.and_eq_true,
    decide_eq_true_eq, if_neg hplain, if_neg hplain', Char.ofNat_toNat]

/-- An escaped character is read back. -/
theorem chars?_escape (n : Nat) (c : Char) (rest : List Char) :
    chars? (n + 1) (escape c ++ rest) =
      (chars? n rest).map fun read => (c :: read.1, read.2) := by
  have hmark (e : Char) (cs : List Char) (he : escaped? (e :: cs) = some (c, rest)) :
      chars? (n + 1) ('\\' :: e :: cs) = (chars? n rest).map fun read => (c :: read.1, read.2) := by
    rw [chars?, if_neg (by decide), if_pos (by decide), he, Option.bind_eq_bind, Option.bind_some]
    dsimp only
    cases chars? n rest <;> rfl
  unfold escape
  split
  case h_8 hquote hslash _ _ _ _ _ =>
    split
    case isTrue hcontrol => exact hmark 'u' _ (numbered?_control hcontrol rest)
    case isFalse hcontrol =>
      -- any other character stands for itself
      rw [List.singleton_append, chars?, if_neg (by simpa using hquote),
        if_neg (by simpa using hslash), if_neg hcontrol]
      cases chars? n rest <;> rfl
  all_goals exact hmark _ _ rfl

theorem length_escape_pos (c : Char) : 0 < (escape c).length := by
  unfold escape
  split
  case h_8 => split <;> simp
  all_goals simp

theorem chars?_flatMap_escape {n : Nat} (cs rest : List Char) (hn : cs.length < n) :
    chars? n (cs.flatMap escape ++ '"' :: rest) = some (cs, rest) := by
  induction cs generalizing n with
  | nil =>
    obtain ⟨n, rfl⟩ : ∃ k, n = k + 1 := ⟨n - 1, by simp at hn; omega⟩
    rfl
  | cons c cs ih =>
    obtain ⟨n, rfl⟩ : ∃ k, n = k + 1 := ⟨n - 1, by simp at hn; omega⟩
    rw [List.flatMap_cons, List.append_assoc, chars?_escape, ih (by simpa using hn),
      Option.map_some]

theorem length_le_length_flatMap_escape (cs : List Char) :
    cs.length ≤ (cs.flatMap escape).length := by
  induction cs with
  | nil => simp
  | cons c cs ih =>
    have hpos := length_escape_pos c
    rw [List.flatMap_cons, List.length_append, List.length_cons]
    omega

theorem toList_quote (s : String) :
    (quote s).toList = '"' :: (s.toList.flatMap escape ++ ['"']) := by
  simp [quote]

/-- A text is read back. -/
theorem text?_quote (s : String) (rest : List Char) :
    text? (s.toList.flatMap escape ++ '"' :: rest) = some (s, rest) := by
  have hlength := length_le_length_flatMap_escape s.toList
  rw [text?, chars?_flatMap_escape _ _ (by rw [List.length_append]; omega), Option.map_some]
  dsimp only
  rw [String.ofList_toList]

/-! ## Counts -/

/-- A number that stands before the given text ends there. -/
def EndsNumber (rest : List Char) : Prop :=
  ∀ c ∈ rest.head?, c.isDigit = false ∧ c ≠ '.' ∧ c ≠ 'e' ∧ c ≠ 'E'

theorem head?_toDigits_ne_zero (n : Nat) (hn : 0 < n) : (Nat.toDigits 10 n).head? ≠ some '0' := by
  induction n using Nat.strongRecOn with
  | ind n ih =>
    by_cases hlt : n < 10
    · rw [Nat.toDigits_of_lt_base hlt]
      have hdigit : ∀ m < 10, 0 < m → [Nat.digitChar m].head? ≠ some '0' := by decide
      exact hdigit n hlt hn
    · -- the first digit is that of the number without its last digit
      have hsplit := Nat.toDigits_append_toDigits (b := 10) (n := n / 10) (d := n % 10)
        (by omega) (by omega) (by omega)
      have hsum : 10 * (n / 10) + n % 10 = n := by omega
      have hpos : 0 < (Nat.toDigits 10 (n / 10)).length := Nat.length_toDigits_pos
      rw [hsum] at hsplit
      rw [← hsplit, List.head?_append_of_ne_nil _ (List.length_pos_iff.mp hpos)]
      exact ih (n / 10) (by omega) (by omega)

theorem digits?_append {digits rest : List Char} (hdigits : ∀ c ∈ digits, c.isDigit = true)
    (hne : digits ≠ []) (hrest : ∀ c ∈ rest.head?, c.isDigit = false) :
    digits? (digits ++ rest) = some (digits, rest) := by
  have hstop : rest.takeWhile Char.isDigit = [] := by
    cases rest with
    | nil => rfl
    | cons c rest => simp [hrest c rfl]
  have htake : (digits ++ rest).takeWhile Char.isDigit = digits := by
    rw [List.takeWhile_append_of_pos hdigits, hstop, List.append_nil]
  simp [digits?, htake, hne]

/-- A count is written with a digit first. -/
theorem toList_count_eq_cons (n : Nat) :
    ∃ c cs, (toString n).toList = c :: cs ∧ c.isDigit = true := by
  obtain ⟨c, cs, hcs⟩ := List.exists_cons_of_length_pos (Nat.length_toDigits_pos (b := 10) (n := n))
  refine ⟨c, cs, by rw [Nat.toString_eq_repr, Nat.toList_repr, hcs], ?_⟩
  exact Nat.isDigit_of_mem_toDigits (b := 10) (n := n) (by omega) (by omega)
    (hcs ▸ List.mem_cons_self)

/-- A count is read back. -/
theorem number?_count (n : Nat) {rest : List Char} (hrest : EndsNumber rest) :
    number? ((toString n).toList ++ rest) = some (toString n, rest) := by
  have htext : (toString n).toList = Nat.toDigits 10 n := by
    rw [Nat.toString_eq_repr, Nat.toList_repr]
  have hback : String.ofList (Nat.toDigits 10 n) = toString n := by
    rw [← htext, String.ofList_toList]
  have hdigits : ∀ c ∈ Nat.toDigits 10 n, c.isDigit = true := fun c hc =>
    Nat.isDigit_of_mem_toDigits (by omega) (by omega) hc
  have hne : Nat.toDigits 10 n ≠ [] := List.length_pos_iff.mp Nat.length_toDigits_pos
  have hread := digits?_append hdigits hne fun c hc => (hrest c hc).1
  have hsign : ∀ more, Nat.toDigits 10 n ++ rest ≠ '-' :: more := by
    intro more hminus
    obtain ⟨c, cs, hcs, hdigit⟩ := toList_count_eq_cons n
    rw [← htext, hcs, List.cons_append, List.cons.injEq] at hminus
    exact absurd (hminus.1 ▸ hdigit) (by decide)
  have hzero : ¬ ((Nat.toDigits 10 n).length > 1 ∧ (Nat.toDigits 10 n).head? = some '0') := by
    rintro ⟨hlong, hhead⟩
    rcases Nat.eq_zero_or_pos n with rfl | hpos
    · exact absurd hlong (by decide)
    · exact head?_toDigits_ne_zero n hpos hhead
  rw [htext]
  delta number?
  split
  next sign digits hparts =>
    obtain ⟨rfl, rfl⟩ : sign = [] ∧ digits = Nat.toDigits 10 n ++ rest := by
      split at hparts
      · next more hminus => exact absurd hminus (hsign more)
      · cases hparts
        exact ⟨rfl, rfl⟩
    rw [hread, Option.bind_eq_bind, Option.bind_some]
    dsimp only
    rw [if_neg (by simpa using hzero)]
    -- neither a fraction nor an exponent follows
    cases rest with
    | nil => simp [hback]
    | cons c rest =>
      obtain ⟨-, hpoint, hsmall, hlarge⟩ := hrest c rfl
      simp [hback, hpoint, hsmall, hlarge]

/-! ## Layout -/

/-- Characters that the reader skips between the parts of a value. -/
def AreBlanks (cs : List Char) : Prop := ∀ c ∈ cs, c = ' ' ∨ c = '\t' ∨ c = '\n' ∨ c = '\r'

theorem skipBlanks_append {blanks : List Char} (h : AreBlanks blanks) (cs : List Char) :
    skipBlanks (blanks ++ cs) = skipBlanks cs := by
  apply List.dropWhile_append_of_pos
  intro c hc
  rcases h c hc with rfl | rfl | rfl | rfl <;> rfl

/-- The line break before an item at a level, with the blanks after it. -/
def indentation (level : Nat) : List Char := '\n' :: List.replicate (2 * level) ' '

theorem areBlanks_indentation (level : Nat) : AreBlanks (indentation level) := by
  intro c hc
  rcases List.mem_cons.mp hc with rfl | hc
  · exact .inr (.inr (.inl rfl))
  · exact .inl (List.eq_of_mem_replicate hc)

theorem toList_enclose {opening closing : String} (first last : Char)
    (hfirst : opening.toList = [first])
    (hlast : closing.toList = [last]) (level : Nat) {items : List String} (hitems : items ≠ []) :
    (enclose opening closing level items).toList =
      first :: (indentation (level + 1) ++
        ((',' :: indentation (level + 1)).intercalate (items.map String.toList) ++
          (indentation level ++ [last]))) := by
  simp [enclose, hitems, indentation, Text.replicate, String.toList_intercalate, hfirst, hlast]

/-! ## Written forms -/

mutual

/-- A value that can be read back: its numbers are counts, and it nests at most `depth` deep. -/
def Readable (depth : Nat) : Json → Prop
  | null | truth _ | text _ => True
  | number written => ∃ n : Nat, written = toString n
  | array items => 0 < depth ∧ ReadableItems (depth - 1) items
  | object entries => 0 < depth ∧ ReadableEntries (depth - 1) entries

/-- Items that can be read back. -/
def ReadableItems (depth : Nat) : List Json → Prop
  | [] => True
  | item :: items => item.Readable depth ∧ ReadableItems depth items

/-- Entries that can be read back. -/
def ReadableEntries (depth : Nat) : List (String × Json) → Prop
  | [] => True
  | (_, value) :: entries => value.Readable depth ∧ ReadableEntries depth entries

end

/-- A text that begins like a value: neither with a blank nor with the end of an array. -/
def BeginsValue (cs : List Char) : Prop :=
  ∃ c more, cs = c :: more ∧ c ≠ ']' ∧ ¬ AreBlanks [c]

theorem skipBlanks_of_not_areBlanks {c : Char} (h : ¬ AreBlanks [c]) (more : List Char) :
    skipBlanks (c :: more) = c :: more := by
  rw [skipBlanks, List.dropWhile_cons_of_neg]
  intro hc
  refine h fun d hd => ?_
  rw [List.mem_singleton.mp hd]
  simpa [or_assoc] using hc

theorem not_areBlanks_of_isDigit {c : Char} (hc : c.isDigit = true) : ¬ AreBlanks [c] := by
  intro hblank
  rcases hblank c (List.mem_singleton.mpr rfl) with rfl | rfl | rfl | rfl <;>
    exact absurd hc (by decide)

theorem BeginsValue.append {cs : List Char} (h : BeginsValue cs) (rest : List Char) :
    BeginsValue (cs ++ rest) := by
  obtain ⟨c, more, rfl, hc, hblank⟩ := h
  exact ⟨c, more ++ rest, rfl, hc, hblank⟩

/-- The written forms of the items of an array, with the commas between them. -/
def itemsText (level : Nat) (items : List Json) : List Char :=
  (',' :: indentation level).intercalate ((prettyItems level items).map String.toList)

/-- The written forms of the entries of an object, with the commas between them. -/
def entriesText (level : Nat) (entries : List (String × Json)) : List Char :=
  (',' :: indentation level).intercalate ((prettyEntries level entries).map String.toList)

theorem itemsText_singleton (level : Nat) (item : Json) :
    itemsText level [item] = (item.prettyAt level).toList := by
  simp [itemsText, prettyItems]

theorem itemsText_cons_cons (level : Nat) (item next : Json) (items : List Json) :
    itemsText level (item :: next :: items) =
      (item.prettyAt level).toList ++ ',' ::
      (indentation level ++ itemsText level (next :: items)) := by
  simp [itemsText, prettyItems]

theorem entriesText_singleton (level : Nat) (key : String) (value : Json) :
    entriesText level [(key, value)] =
      (quote key).toList ++ ':' :: ' ' :: (value.prettyAt level).toList := by
  simp [entriesText, prettyEntries]

theorem entriesText_cons_cons (level : Nat) (key : String) (value : Json) (next : String × Json)
    (entries : List (String × Json)) :
    entriesText level ((key, value) :: next :: entries) =
      (quote key).toList ++ ':' :: ' ' :: ((value.prettyAt level).toList ++
        ',' :: (indentation level ++ entriesText level (next :: entries))) := by
  obtain ⟨nextKey, nextValue⟩ := next
  simp [entriesText, prettyEntries]

theorem toList_prettyAt_null (level : Nat) :
    (prettyAt level null).toList = ['n', 'u', 'l', 'l'] := by
  rw [prettyAt]
  rfl

theorem toList_prettyAt_truth (level : Nat) (value : Bool) :
    (prettyAt level (truth value)).toList =
      if value then ['t', 'r', 'u', 'e'] else ['f', 'a', 'l', 's', 'e'] := by
  rw [prettyAt]
  cases value <;> rfl

theorem toList_prettyAt_array_nil (level : Nat) :
    (prettyAt level (array [])).toList = ['[', ']'] := by
  rw [prettyAt, prettyItems, enclose, List.isEmpty_nil, if_pos rfl, String.toList_append]
  rfl

theorem toList_prettyAt_array_cons (level : Nat) (item : Json) (items : List Json) :
    (prettyAt level (array (item :: items))).toList =
      '[' :: (indentation (level + 1) ++
        (itemsText (level + 1) (item :: items) ++ (indentation level ++ [']']))) := by
  have hne : prettyItems (level + 1) (item :: items) ≠ [] := by
    rw [prettyItems]
    exact List.cons_ne_nil _ _
  rw [prettyAt, toList_enclose '[' ']' rfl rfl level hne, itemsText]

theorem toList_prettyAt_object_nil (level : Nat) :
    (prettyAt level (object [])).toList = ['\x7b', '\x7d'] := by
  rw [prettyAt, prettyEntries, enclose, List.isEmpty_nil, if_pos rfl, String.toList_append]
  rfl

theorem toList_prettyAt_object_cons (level : Nat) (entry : String × Json)
    (entries : List (String × Json)) :
    (prettyAt level (object (entry :: entries))).toList =
      '\x7b' :: (indentation (level + 1) ++
        (entriesText (level + 1) (entry :: entries) ++ (indentation level ++ ['\x7d']))) := by
  have hne : prettyEntries (level + 1) (entry :: entries) ≠ [] := by
    rw [prettyEntries]
    exact List.cons_ne_nil _ _
  rw [prettyAt, toList_enclose '\x7b' '\x7d' rfl rfl level hne, entriesText]

theorem beginsValue_prettyAt (level : Nat) {depth : Nat} {j : Json} (hj : j.Readable depth) :
    BeginsValue (j.prettyAt level).toList := by
  have hmark : ∀ c ∈ ['n', 't', 'f', '"', '[', '\x7b'], ∀ more, BeginsValue (c :: more) := by
    intro c hc more
    refine ⟨c, more, rfl, ?_, ?_⟩ <;> revert c <;> simp [AreBlanks]
  cases j with
  | null => exact toList_prettyAt_null level ▸ hmark 'n' (by simp) _
  | truth value =>
    rw [toList_prettyAt_truth]
    cases value
    · exact hmark 'f' (by simp) _
    · exact hmark 't' (by simp) _
  | text value =>
    rw [prettyAt, toList_quote]
    exact hmark '"' (by simp) _
  | array items =>
    cases items with
    | nil => exact toList_prettyAt_array_nil level ▸ hmark '[' (by simp) _
    | cons item items => exact toList_prettyAt_array_cons level item items ▸ hmark '[' (by simp) _
  | object entries =>
    cases entries with
    | nil => exact toList_prettyAt_object_nil level ▸ hmark '\x7b' (by simp) _
    | cons entry entries =>
      exact toList_prettyAt_object_cons level entry entries ▸ hmark '\x7b' (by simp) _
  | number written =>
    obtain ⟨n, rfl⟩ := hj
    obtain ⟨c, cs, hcs, hdigit⟩ := toList_count_eq_cons n
    refine ⟨c, cs, by rw [prettyAt, hcs], ?_, not_areBlanks_of_isDigit hdigit⟩
    rintro rfl
    exact absurd hdigit (by decide)

theorem beginsValue_itemsText (level : Nat) {depth : Nat} {item : Json}
    (hitem : item.Readable depth)
    (items : List Json) : BeginsValue (itemsText level (item :: items)) := by
  have hbegins := beginsValue_prettyAt level hitem
  cases items with
  | nil => exact itemsText_singleton level item ▸ hbegins
  | cons next items => exact itemsText_cons_cons level item next items ▸ hbegins.append _

theorem entriesText_cons_eq (level : Nat) (entry : String × Json) (entries : List (String × Json)) :
    ∃ more, entriesText level (entry :: entries) = '"' :: more := by
  obtain ⟨key, value⟩ := entry
  cases entries with
  | nil => exact ⟨_, by rw [entriesText_singleton, toList_quote, List.cons_append]⟩
  | cons next entries => exact ⟨_, by rw [entriesText_cons_cons, toList_quote, List.cons_append]⟩

/-! ## Steps of the reader

One lemma for each thing that a step of the reader can come to. -/

theorem endsNumber_of_areBlanks {blanks : List Char} (h : AreBlanks blanks) {rest : List Char}
    (hrest : EndsNumber rest) : EndsNumber (blanks ++ rest) := by
  cases blanks with
  | nil => exact hrest
  | cons b blanks =>
    intro c hc
    rw [List.cons_append, List.head?_cons, Option.mem_some_iff] at hc
    subst hc
    rcases h b List.mem_cons_self with rfl | rfl | rfl | rfl <;> decide

theorem endsNumber_cons {c : Char} (hc : c ∈ [',', ']', '\x7d']) (rest : List Char) :
    EndsNumber (c :: rest) := by
  intro d hd
  rw [List.head?_cons, Option.mem_some_iff] at hd
  subst hd
  simp only [List.mem_cons, List.not_mem_nil, or_false] at hc
  rcases hc with rfl | rfl | rfl <;> decide

theorem read?_value_append {blanks : List Char} (h : AreBlanks blanks) (n depth : Nat)
    (cs : List Char) :
    read? n depth .value (blanks ++ cs) = read? n depth .value cs := by
  cases n with
  | zero => rfl
  | succ n => rw [read?, read?, readStep?, readStep?, skipBlanks_append h]

theorem read?_value_space (n depth : Nat) (cs : List Char) :
    read? n depth .value (' ' :: cs) = read? n depth .value cs :=
  read?_value_append (show AreBlanks [' '] by simp [AreBlanks]) n depth cs

theorem read?_text {cs rest : List Char} {value : String} (h : text? cs = some (value, rest))
    (n depth : Nat) :
    read? (n + 1) depth .value ('"' :: cs) = some (.value (.text value), rest) := by
  rw [read?, readStep?, skipBlanks_of_not_areBlanks (by simp [AreBlanks])]
  simp [h]

theorem read?_count (n depth count : Nat) {rest : List Char} (hrest : EndsNumber rest) :
    read? (n + 1) depth .value ((toString count).toList ++ rest) =
      some (.value (.number (toString count)), rest) := by
  have hread := number?_count count hrest
  obtain ⟨c, cs, hcs, hdigit⟩ := toList_count_eq_cons count
  have hother : ∀ d : Char, d.isDigit = false → d ≠ c := by
    rintro d hd rfl
    exact Bool.false_ne_true (hd ▸ hdigit)
  rw [hcs, List.cons_append] at hread ⊢
  -- a digit begins neither a text nor a bracket nor one of the three words
  have hword : ∀ (d : Char) (word : List Char), d.isDigit = false →
      Text.afterStart? (d :: word) (c :: (cs ++ rest)) = none := by
    intro d word hd
    rw [Text.afterStart?, if_neg (by simpa using hother d hd)]
  rw [read?, readStep?, skipBlanks_of_not_areBlanks (not_areBlanks_of_isDigit hdigit)]
  split
  · simp_all
  · simp_all
  · simp_all
  · rw [show "null".toList = 'n' :: ['u', 'l', 'l'] from rfl,
      show "true".toList = 't' :: ['r', 'u', 'e'] from rfl,
      show "false".toList = 'f' :: ['a', 'l', 's', 'e'] from rfl,
      hword 'n' _ rfl, hword 't' _ rfl, hword 'f' _ rfl, hread]
    rfl

theorem read?_array_nil (n depth : Nat) (rest : List Char) :
    read? (n + 1) (depth + 1) .value ('[' :: ']' :: rest) = some (.value (.array []), rest) := by
  rw [read?, readStep?, skipBlanks_of_not_areBlanks (by simp [AreBlanks])]
  simp [skipBlanks]

theorem read?_object_nil (n depth : Nat) (rest : List Char) :
    read? (n + 1) (depth + 1) .value ('\x7b' :: '\x7d' :: rest) =
      some (.value (.object []), rest) := by
  rw [read?, readStep?, skipBlanks_of_not_areBlanks (by simp [AreBlanks])]
  simp [skipBlanks]

theorem read?_array {n depth : Nat} {before cs rest : List Char} {items : List Json}
    (hbefore : AreBlanks before) (hcs : BeginsValue cs)
    (h : read? n depth .items cs = some (.items items, rest)) :
    read? (n + 1) (depth + 1) .value ('[' :: (before ++ cs)) =
      some (.value (.array items), rest) := by
  obtain ⟨c, more, rfl, hc, hblank⟩ := hcs
  rw [read?, readStep?, skipBlanks_of_not_areBlanks (by simp [AreBlanks])]
  simp [skipBlanks_append hbefore, skipBlanks_of_not_areBlanks hblank, hc, h]

theorem read?_object {n depth : Nat} {before cs rest : List Char} {entries : List (String × Json)}
    (hbefore : AreBlanks before)
    (h : read? n depth .entries ('"' :: cs) = some (.entries entries, rest)) :
    read? (n + 1) (depth + 1) .value ('\x7b' :: (before ++ '"' :: cs)) =
      some (.value (.object entries), rest) := by
  rw [read?, readStep?, skipBlanks_of_not_areBlanks (by simp [AreBlanks])]
  simp [skipBlanks_append hbefore, skipBlanks_of_not_areBlanks (c := '"') (by simp [AreBlanks]), h]

theorem read?_items_last {n depth : Nat} {cs after rest : List Char} {item : Json}
    (hafter : AreBlanks after)
    (h : read? n depth .value cs = some (.value item, after ++ ']' :: rest)) :
    read? (n + 1) depth .items cs = some (.items [item], rest) := by
  rw [read?, readStep?, h]
  simp [skipBlanks_append hafter, skipBlanks_of_not_areBlanks (c := ']') (by simp [AreBlanks])]

theorem read?_items_more {n depth : Nat} {cs more rest : List Char} {item : Json}
    {items : List Json}
    (h : read? n depth .value cs = some (.value item, ',' :: more))
    (hmore : read? n depth .items more = some (.items items, rest)) :
    read? (n + 1) depth .items cs = some (.items (item :: items), rest) := by
  rw [read?, readStep?, h]
  simp [skipBlanks_of_not_areBlanks (c := ',') (by simp [AreBlanks]), hmore]

theorem read?_entries_last {n depth : Nat} {cs value after rest : List Char} {key : String}
    {item : Json}
    (hafter : AreBlanks after) (hkey : keyAt? cs = some (key, value))
    (h : read? n depth .value value = some (.value item, after ++ '\x7d' :: rest)) :
    read? (n + 1) depth .entries cs = some (.entries [(key, item)], rest) := by
  rw [read?, readStep?, hkey]
  simp [h, skipBlanks_append hafter,
    skipBlanks_of_not_areBlanks (c := '\x7d') (by simp [AreBlanks])]

theorem read?_entries_more {n depth : Nat} {cs value more rest : List Char} {key : String}
    {item : Json}
    {entries : List (String × Json)} (hkey : keyAt? cs = some (key, value))
    (h : read? n depth .value value = some (.value item, ',' :: more))
    (hmore : read? n depth .entries more = some (.entries entries, rest)) :
    read? (n + 1) depth .entries cs = some (.entries ((key, item) :: entries), rest) := by
  rw [read?, readStep?, hkey]
  simp [h, skipBlanks_of_not_areBlanks (c := ',') (by simp [AreBlanks]), hmore]

theorem keyAt?_quote (key : String) (rest : List Char) :
    keyAt? ((quote key).toList ++ ':' :: rest) = some (key, rest) := by
  rw [keyAt?, toList_quote, List.cons_append, skipBlanks_of_not_areBlanks (by simp [AreBlanks])]
  simp [text?_quote, skipBlanks_of_not_areBlanks (c := ':') (by simp [AreBlanks])]

theorem read?_items_append {blanks : List Char} (h : AreBlanks blanks) (n depth : Nat)
    (cs : List Char) :
    read? n depth .items (blanks ++ cs) = read? n depth .items cs := by
  cases n with
  | zero => rfl
  | succ n => rw [read?, read?, readStep?, readStep?, read?_value_append h]

theorem read?_entries_append {blanks : List Char} (h : AreBlanks blanks) (n depth : Nat)
    (cs : List Char) : read? n depth .entries (blanks ++ cs) = read? n depth .entries cs := by
  cases n with
  | zero => rfl
  | succ n => rw [read?, read?, readStep?, readStep?, keyAt?, keyAt?, skipBlanks_append h]

/-! ## Values -/

mutual

/-- A value is read back, whatever stands after it. -/
theorem read?_prettyAt (level : Nat) : ∀ (j : Json) (n depth : Nat) (rest : List Char),
    j.Readable depth → EndsNumber rest → 2 * ((j.prettyAt level).toList ++ rest).length ≤ n →
      read? (n + 1) depth .value ((j.prettyAt level).toList ++ rest) = some (.value j, rest)
  | null => by
    intro n depth rest _ _ _
    rw [toList_prettyAt_null]
    rfl
  | truth value => by
    intro n depth rest _ _ _
    rw [toList_prettyAt_truth]
    cases value <;> rfl
  | text value => by
    intro n depth rest _ _ _
    rw [prettyAt, toList_quote, List.cons_append, List.append_assoc]
    exact read?_text (text?_quote value rest) n depth
  | number written => by
    intro n depth rest hcount hrest _
    obtain ⟨count, rfl⟩ := hcount
    rw [prettyAt]
    exact read?_count n depth count hrest
  | array [] => by
    intro n depth rest hj _ _
    obtain ⟨depth, rfl⟩ := Nat.exists_eq_add_one.mpr hj.1
    rw [toList_prettyAt_array_nil]
    exact read?_array_nil n depth rest
  | array (item :: items) => by
    intro n depth rest hj _ hn
    obtain ⟨hdepth, hitems⟩ := hj
    obtain ⟨depth, rfl⟩ := Nat.exists_eq_add_one.mpr hdepth
    rw [toList_prettyAt_array_cons] at hn ⊢
    simp only [List.cons_append, List.append_assoc, List.length_append, List.length_cons,
      List.nil_append] at hn ⊢
    obtain ⟨n, rfl⟩ := Nat.exists_eq_add_one.mpr (show 0 < n by omega)
    refine read?_array (areBlanks_indentation _) ((beginsValue_itemsText _ hitems.1 items).append _)
      (read?_itemsText (level + 1) (areBlanks_indentation level) (item :: items) n depth rest
        (List.cons_ne_nil _ _) hitems ?_)
    simp only [List.length_append, List.length_cons]
    omega
  | object [] => by
    intro n depth rest hj _ _
    obtain ⟨depth, rfl⟩ := Nat.exists_eq_add_one.mpr hj.1
    rw [toList_prettyAt_object_nil]
    exact read?_object_nil n depth rest
  | object (entry :: entries) => by
    intro n depth rest hj _ hn
    obtain ⟨hdepth, hentries⟩ := hj
    obtain ⟨depth, rfl⟩ := Nat.exists_eq_add_one.mpr hdepth
    rw [toList_prettyAt_object_cons] at hn ⊢
    simp only [List.cons_append, List.append_assoc, List.length_append, List.length_cons,
      List.nil_append] at hn ⊢
    obtain ⟨n, rfl⟩ := Nat.exists_eq_add_one.mpr (show 0 < n by omega)
    have hread :=
      read?_entriesText (level + 1) (areBlanks_indentation level) (entry :: entries) n depth
      rest (List.cons_ne_nil _ _) hentries (by
        simp only [List.length_append, List.length_cons]
        omega)
    obtain ⟨more, hmore⟩ := entriesText_cons_eq (level + 1) entry entries
    rw [hmore, List.cons_append] at hread ⊢
    exact read?_object (areBlanks_indentation _) hread

/-- Items are read back up to the end of their array. -/
theorem read?_itemsText (level : Nat) {after : List Char} (hafter : AreBlanks after) :
    ∀ (items : List Json) (n depth : Nat) (rest : List Char), items ≠ [] →
      ReadableItems depth items →
      2 * (itemsText level items ++ (after ++ ']' :: rest)).length + 1 ≤ n →
        read? (n + 1) depth .items (itemsText level items ++ (after ++ ']' :: rest)) =
          some (.items items, rest)
  | [] => fun _ _ _ hne => absurd rfl hne
  | [item] => by
    intro n depth rest _ hitems hn
    obtain ⟨n, rfl⟩ := Nat.exists_eq_add_one.mpr (show 0 < n by omega)
    rw [itemsText_singleton] at hn ⊢
    have hend := endsNumber_of_areBlanks hafter (endsNumber_cons (c := ']') (by simp) rest)
    exact read?_items_last hafter (read?_prettyAt level item n depth _ hitems.1 hend (by omega))
  | item :: next :: items => by
    intro n depth rest _ hitems hn
    obtain ⟨n, rfl⟩ := Nat.exists_eq_add_one.mpr (show 0 < n by omega)
    rw [itemsText_cons_cons, List.append_assoc, List.cons_append, List.append_assoc] at hn ⊢
    refine read?_items_more
      (read?_prettyAt level item n depth _ hitems.1 (endsNumber_cons (by simp) _) (by omega)) ?_
    rw [read?_items_append (areBlanks_indentation level)]
    refine read?_itemsText level hafter (next :: items) n depth rest
      (List.cons_ne_nil _ _) hitems.2 ?_
    simp only [List.length_append, List.length_cons] at hn ⊢
    omega

/-- Entries are read back up to the end of their object. -/
theorem read?_entriesText (level : Nat) {after : List Char} (hafter : AreBlanks after) :
    ∀ (entries : List (String × Json)) (n depth : Nat) (rest : List Char), entries ≠ [] →
      ReadableEntries depth entries →
      2 * (entriesText level entries ++ (after ++ '\x7d' :: rest)).length + 1 ≤ n →
        read? (n + 1) depth .entries (entriesText level entries ++ (after ++ '\x7d' :: rest)) =
          some (.entries entries, rest)
  | [] => fun _ _ _ hne => absurd rfl hne
  | [(key, value)] => by
    intro n depth rest _ hentries hn
    obtain ⟨n, rfl⟩ := Nat.exists_eq_add_one.mpr (show 0 < n by omega)
    rw [entriesText_singleton, List.append_assoc, List.cons_append, List.cons_append] at hn ⊢
    have hend := endsNumber_of_areBlanks hafter (endsNumber_cons (c := '\x7d') (by simp) rest)
    refine read?_entries_last hafter (keyAt?_quote key _) ?_
    rw [read?_value_space]
    refine read?_prettyAt level value n depth _ hentries.1 hend ?_
    simp only [List.length_append, List.length_cons] at hn ⊢
    omega
  | (key, value) :: next :: entries => by
    intro n depth rest _ hentries hn
    obtain ⟨n, rfl⟩ := Nat.exists_eq_add_one.mpr (show 0 < n by omega)
    rw [entriesText_cons_cons] at hn ⊢
    simp only [List.append_assoc, List.cons_append, List.length_append, List.length_cons] at hn ⊢
    have hvalue := read?_prettyAt level value n depth
      (',' ::
        (indentation level ++ (entriesText level (next :: entries) ++ (after ++ '\x7d' :: rest))))
      hentries.1 (endsNumber_cons (by simp) _) (by
        simp only [List.length_append, List.length_cons]
        omega)
    refine read?_entries_more (keyAt?_quote key _) ((read?_value_space _ _ _).trans hvalue) ?_
    rw [read?_entries_append (areBlanks_indentation level)]
    refine read?_entriesText level hafter (next :: entries) n depth rest (List.cons_ne_nil _ _)
      hentries.2 ?_
    simp only [List.length_append, List.length_cons]
    omega

end

/-- **A written value is read back,** whatever blanks stand after it. -/
theorem parse?_pretty_append {j : Json} (hj : j.Readable 127) {blanks : String}
    (hblanks : AreBlanks blanks.toList) : parse? (j.pretty ++ blanks) = some j := by
  have hnothing : EndsNumber [] := by simp [EndsNumber]
  have hend : EndsNumber blanks.toList := by
    simpa using endsNumber_of_areBlanks hblanks hnothing
  have hread :=
    read?_prettyAt 0 j (2 * (j.pretty ++ blanks).toList.length + 1) 127 blanks.toList hj hend (by
    rw [String.toList_append, pretty]
    exact Nat.le_succ _)
  have hskip : skipBlanks blanks.toList = [] := by
    simpa [skipBlanks] using skipBlanks_append hblanks []
  rw [← pretty, ← String.toList_append] at hread
  rw [parse?, hread]
  dsimp only
  rw [hskip]
  rfl

theorem parse?_pretty {j : Json} (hj : j.Readable 127) : parse? j.pretty = some j := by
  have hblanks : AreBlanks "".toList := by simp [AreBlanks]
  simpa using parse?_pretty_append hj hblanks

end AdLint.Json
