import AdLint.Source.Literal
import Mathlib.Data.List.Basic

/-!
# Quoted texts

Any text can be written between quotes: a backslash, a quote, a line feed and a tab are escaped, and
every other character stands for itself. Such a literal is read back as the text. Its reader looks
at the quotes on both ends before it looks at the escapes. A quote of the text is behind its
backslash, so the literal never begins like one in triple quotes, also if the text is empty or
begins with quotes.

## Main definitions

* `escape`: the characters that write a character between quotes
* `quoted`: the literal that writes a text

## Main results

* `inner_between_quotes`: one quote is dropped on each side of what does not begin with a quote
* `unescape_flatMap_escape`: escaped characters are resolved one by one
* `unquote_quoted`: a text is read back from the literal that writes it
-/

namespace AdLint.Literal

variable {c : Char} {cs : List Char}

/-- The characters that write a character between quotes. -/
def escape (c : Char) : List Char :=
  if c = '\\' ∨ c = '"' then ['\\', c]
  else if c = '\n' then ['\\', 'n']
  else if c = '\t' then ['\\', 't']
  else [c]

/-- The literal that writes a text. -/
def quoted (text : String) : String := String.ofList ('"' :: (text.toList.flatMap escape ++ ['"']))

/-! ## Quotes -/

/-- What begins with no quote is never taken for the inside of triple quotes. -/
theorem between?_triple_eq_none (h : cs.head? ≠ some '"') :
    between? ['"', '"', '"'] ('"' :: (cs ++ ['"'])) = none := by
  cases cs with
  | nil => rfl
  | cons c cs =>
    have hc : '"' ≠ c := fun heq => h (by rw [heq]; rfl)
    simp [between?, Text.afterStart?, hc]

/-- One quote is dropped on each side. -/
theorem inner_between_quotes (h : cs.head? ≠ some '"') : inner ('"' :: (cs ++ ['"'])) = cs := by
  have hone : between? ['"'] ('"' :: (cs ++ ['"'])) = some cs := by
    simp [between?, Text.afterStart?, Text.beforeEnd?]
  rw [inner, between?_triple_eq_none h, hone]
  rfl

/-- Escaped characters do not begin with a quote: it would stand behind its backslash. -/
theorem head?_flatMap_escape (cs : List Char) : (cs.flatMap escape).head? ≠ some '"' := by
  cases cs with
  | nil => simp
  | cons c cs =>
    rw [List.flatMap_cons, escape]
    split_ifs with hescaped
    · simp
    · simp
    · simp
    · simpa using fun heq => hescaped (.inr heq)

/-! ## Escapes -/

theorem unescape_plain (hc : c ≠ '\\') : unescape (c :: cs) = c :: unescape cs := by
  cases cs with
  | nil => simp [unescape]
  | cons d ds =>
    rw [unescape]
    intro c' cs' heq
    exact absurd heq hc

/-- A written character is resolved, whatever follows it. -/
theorem unescape_escape_append (c : Char) (cs : List Char) :
    unescape (escape c ++ cs) = c :: unescape cs := by
  rw [escape]
  split_ifs with hescaped hfeed htab
  · rcases hescaped with rfl | rfl <;> rfl
  · rw [hfeed]
    rfl
  · rw [htab]
    rfl
  · exact unescape_plain fun heq => hescaped (.inl heq)

theorem unescape_flatMap_escape (cs : List Char) : unescape (cs.flatMap escape) = cs := by
  induction cs with
  | nil => rfl
  | cons c cs ih => rw [List.flatMap_cons, unescape_escape_append, ih]

/-- **A text is read back from the literal that writes it.** This is never taken for a literal in
triple quotes. -/
theorem unquote_quoted (text : String) :
    unquote (quoted text) = text ∧ between? ['"', '"', '"'] (quoted text).toList = none ∧
      inner (quoted text).toList = text.toList.flatMap escape := by
  have hhead := head?_flatMap_escape text.toList
  have hinner : inner (quoted text).toList = text.toList.flatMap escape := by
    rw [quoted, String.toList_ofList, inner_between_quotes hhead]
  refine ⟨?_, ?_, hinner⟩
  · rw [unquote, hinner, unescape_flatMap_escape, String.ofList_toList]
  · rw [quoted, String.toList_ofList, between?_triple_eq_none hhead]

example : quoted "\\\"\n\t" = "\"\\\\\\\"\\n\\t\"" ∧ quoted "" = "\"\"" := by decide

end AdLint.Literal
