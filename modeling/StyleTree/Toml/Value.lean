/-!
# TOML values

What a TOML document says, as far as a configuration can use it. All numbers are one value, since no
field takes a number. A date or a time is read as a table with one entry, its text under a reserved
key.

## Main definitions

* `Value` — the values
* `Item` — an entry of a table that is still being written, with the way in which it was opened
* `Item.insertKey` — a key with dots written into a table
* `Item.insertSection` — a section with a header written into a table
-/

namespace StyleTree.Toml

/-- A TOML value. -/
inductive Value where
  /-- A text. -/
  | text (s : String)
  /-- A truth value. -/
  | boolean (b : Bool)
  /-- A number of any kind. -/
  | number
  /-- An array. -/
  | list (elements : List Value)
  /-- A table. -/
  | table (entries : List (String × Value))

/-- The key under which the text of a date or a time stands. -/
def dateKey : String := "$__toml_private_datetime"

/-- A date or a time with the given text. -/
def Value.date (text : String) : Value := .table [(dateKey, .text text)]

/-- How a table came into being. -/
inductive Origin where
  /-- By a header of its own. -/
  | header
  /-- By the header of a table inside it. -/
  | implied
  /-- By a key with dots. -/
  | dotted
  deriving DecidableEq

/-- An entry of a table that is still being written. -/
inductive Item where
  /-- A value, to which nothing can be added. -/
  | value (v : Value)
  /-- A table. -/
  | table (origin : Origin) (entries : List (String × Item))
  /-- An array of tables, of which the last one can be added to. -/
  | tables (before : List (List (String × Item))) (last : List (String × Item))

/-- The entries of a table that is still being written. -/
abbrev Items := List (String × Item)

namespace Item

/-- Writes an entry in place of one with the same key, or after the others. -/
def write (key : String) (item : Item) : Items → Items
  | [] => [(key, item)]
  | (k, i) :: rest => if k = key then (key, item) :: rest else (k, i) :: write key item rest

/-- Writes a value under a key with dots. The tables on the way are made if they are missing, and
must not have headers of their own; the last one must have been made by a key with dots, too, which
`isOpen` says of the table at hand. No key is written twice. -/
def insertKey (v : Value) (isOpen : Bool) : List String → Items → Option Items
  | [], _ => none
  | [key], items =>
    if isOpen && (items.lookup key).isNone then some (write key (.value v) items) else none
  | key :: path, items =>
    match items.lookup key with
    | none => (insertKey v true path []).map fun inner => write key (.table .dotted inner) items
    | some (.table .dotted inner) =>
      (insertKey v true path inner).map fun inner => write key (.table .dotted inner) items
    | some (.table .implied inner) =>
      (insertKey v false path inner).map fun inner => write key (.table .implied inner) items
    | some (.table .header _) => none
    | some (.tables before last) =>
      (insertKey v false path last).map fun last => write key (.tables before last) items
    | some (.value _) => none

/-- Writes values under keys with dots, one after another. -/
def insertKeys (pairs : List (List String × Value)) (items : Items) : Option Items :=
  pairs.foldlM (fun items pair => insertKey pair.2 true pair.1 items) items

/-- Writes a section at the path of its header: a table, which may have been implied but not written
before, or (`array`) another element of an array of tables. -/
def insertSection (array : Bool) (pairs : List (List String × Value)) :
    List String → Items → Option Items
  | [], _ => none
  | [key], items =>
    match items.lookup key, array with
    | none, false => (insertKeys pairs []).map fun inner => write key (.table .header inner) items
    | some (.table .implied inner), false =>
      (insertKeys pairs inner).map fun inner => write key (.table .header inner) items
    | none, true => (insertKeys pairs []).map fun inner => write key (.tables [] inner) items
    | some (.tables before last), true =>
      (insertKeys pairs []).map fun inner => write key (.tables (before ++ [last]) inner) items
    | some _, _ => none
  | key :: path, items =>
    match items.lookup key with
    | none =>
      (insertSection array pairs path []).map fun inner => write key (.table .implied inner) items
    | some (.table origin inner) =>
      (insertSection array pairs path inner).map fun inner => write key (.table origin inner) items
    | some (.tables before last) =>
      (insertSection array pairs path last).map fun last => write key (.tables before last) items
    | some (.value _) => none

end Item

mutual

/-- The finished value of an entry. -/
def Item.toValue : Item → Value
  | .value v => v
  | .table _ entries => .table (Items.toEntries entries)
  | .tables before last => .list (Items.toTables before ++ [.table (Items.toEntries last)])

/-- The finished entries of a table. -/
def Items.toEntries : List (String × Item) → List (String × Value)
  | [] => []
  | (key, item) :: rest => (key, item.toValue) :: Items.toEntries rest

/-- The finished tables of an array. -/
def Items.toTables : List (List (String × Item)) → List Value
  | [] => []
  | entries :: rest => .table (Items.toEntries entries) :: Items.toTables rest

end

end StyleTree.Toml
