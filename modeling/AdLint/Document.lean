/-!
# Documents

A document is what a settings file says, whatever format it is written in: texts, lists and tables.

A format may leave scalars without quotes. Such a scalar is kept as written, and an empty one stands
for a value that was left out.
-/

namespace AdLint

/-- A value in a document. -/
inductive Document where
  /-- A text. -/
  | text (value : String)
  /-- A scalar without quotes, as written, in a format that leaves its type open. -/
  | plain (written : String)
  /-- A number, a truth value or another scalar that is no text. -/
  | scalar
  | list (items : List Document)
  /-- Keys with their values, in order; a key may stand more than once. -/
  | table (entries : List (String × Document))
  deriving Repr, Inhabited

namespace Document

/-- The value as a text. -/
def asText? : Document → Option String
  | text value => some value
  | plain written => some written
  | _ => none

/-- The value as a list of texts. A value left out is an empty list. -/
def asTexts? : Document → Option (List String)
  | list items => items.mapM asText?
  | plain "" => some []
  | _ => none

/-- The value as a table with the given keys. A value left out is an empty table, and a list gives
the values of the keys in order. A key of the table must not stand twice. -/
def asRecord? (keys : List String) : Document → Option (List (String × Document))
  | table entries =>
    if keys.all fun key => (entries.filter fun entry => entry.1 == key).length ≤ 1 then some entries
    else none
  | plain "" => some []
  | list items => if items.length ≤ keys.length then some (keys.zip items) else none
  | _ => none

/-- The value of a key read by `read`, and `default` without one. -/
def field? {α : Type} (entries : List (String × Document)) (key : String) (default : α)
    (read : Document → Option α) : Option α :=
  match entries.find? fun entry => entry.1 == key with
  | some (_, value) => read value
  | none => some default

end Document

end AdLint
