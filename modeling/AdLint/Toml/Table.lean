import AdLint.Document

/-!
# TOML tables

A table is made by a header, by the keys before the last one of a header, or by the keys before the
last one of a dotted key. How it was made decides what may be added to it later:

* a header may name a table that only longer headers have made so far, and no other table,
* a dotted key may add to a table that dotted keys have made, and to no other table,
* a header of a list of tables adds one more table to the list.

## Main definitions

* `Item`: what stands under a key
* `Table.insert?`: a table with one more value
* `Table.openTable?`, `Table.openElement?`: a table with a table or an element of a list opened by a
  header
-/

namespace AdLint.Toml

/-- How a table was made. -/
inductive Origin where
  /-- By a header. -/
  | header
  /-- By the header of a table in it. -/
  | implied
  /-- By a dotted key. -/
  | dotted
  deriving DecidableEq, Repr

/-- What stands under a key. -/
inductive Item where
  | value (document : Document)
  | table (origin : Origin) (entries : List (String × Item))
  /-- A list of tables, opened by headers. -/
  | tables (elements : List (List (String × Item)))
  deriving Inhabited

/-- A table: keys with their items. -/
abbrev Table := List (String × Item)

namespace Table

/-- The item under a key. -/
def find? (t : Table) (key : String) : Option Item :=
  (List.find? (fun entry => entry.1 == key) t).map Prod.snd

/-- The table with another item under a key. -/
def set (key : String) (item : Item) : Table → Table
  | [] => [(key, item)]
  | entry :: rest => if entry.1 == key then (key, item) :: rest else entry :: set key item rest

/-- The table with a value under a dotted key. -/
def insert? (t : Table) (value : Document) : List String → Option Table
  | [] => none
  | [key] => if (t.find? key).isSome then none else some (t ++ [(key, .value value)])
  | key :: next :: keys =>
    match t.find? key with
    | none => (insert? [] value (next :: keys)).map fun inner => t ++ [(key, .table .dotted inner)]
    | some (.table origin inner) =>
      if origin == .dotted || (origin == .implied && !keys.isEmpty) then
        (insert? inner value (next :: keys)).map fun inner => t.set key (.table origin inner)
      else none
    | some _ => none

/-- The table with a change in the table that keys lead to. Tables that are missing on the way are
made, and a list of tables stands for its last element. -/
def change? (f : Table → Option Table) (t : Table) : List String → Option Table
  | [] => f t
  | key :: keys =>
    match t.find? key with
    | none => (change? f [] keys).map fun inner => t ++ [(key, .table .implied inner)]
    | some (.table origin inner) =>
      (change? f inner keys).map fun inner => t.set key (.table origin inner)
    | some (.tables elements) =>
      (change? f (elements.getLastD []) keys).map fun last =>
        t.set key (.tables (elements.dropLast ++ [last]))
    | some (.value _) => none

/-- The table with a table under a key opened by a header. -/
def openHere? (key : String) (t : Table) : Option Table :=
  match t.find? key with
  | none => some (t ++ [(key, .table .header [])])
  | some (.table .implied inner) => some (t.set key (.table .header inner))
  | some _ => none

/-- The table with one more element in a list of tables under a key. -/
def addHere? (key : String) (t : Table) : Option Table :=
  match t.find? key with
  | none => some (t ++ [(key, .tables [[]])])
  | some (.tables elements) => some (t.set key (.tables (elements ++ [[]])))
  | some _ => none

/-- The table with the table that keys lead to opened by a header. -/
def openTable? (t : Table) (keys : List String) : Option Table :=
  change? (openHere? (keys.getLastD "")) t keys.dropLast

/-- The table with one more element in the list of tables that keys lead to. -/
def openElement? (t : Table) (keys : List String) : Option Table :=
  change? (addHere? (keys.getLastD "")) t keys.dropLast

end Table

mutual

/-- The document of an item. -/
def Item.document : Item → Document
  | .value document => document
  | .table _ entries => .table (documentEntries entries)
  | .tables elements => .list (documentElements elements)

/-- The documents of entries. -/
def documentEntries : List (String × Item) → List (String × Document)
  | [] => []
  | (key, item) :: rest => (key, item.document) :: documentEntries rest

/-- The documents of the elements of a list of tables. -/
def documentElements : List (List (String × Item)) → List Document
  | [] => []
  | entries :: rest => .table (documentEntries entries) :: documentElements rest

end

end AdLint.Toml
