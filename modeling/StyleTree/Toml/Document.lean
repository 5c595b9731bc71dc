import StyleTree.Toml.Number
import StyleTree.Toml.Value

/-!
# TOML documents

A document is a list of lines: pairs of a key and a value, and headers that open a section for the
pairs after them. A reader gives the whole document as one table, or nothing if anything in it is
wrong.

## Main definitions

* `value` — the reader of a value, with a bound on the depth of nesting
* `Section`, `sections` — the lines of a document, by section
* `Value.ofDocument` — the table of a document
-/

namespace StyleTree.Toml

/-- The elements of an array after its opening bracket, at most as many as the first argument
says. -/
def elements (value : Reader Value) : Nat → Reader (List Value)
  | 0, _ => none
  | fuel + 1, cs =>
    match skipLines false cs with
    | ']' :: rest => some ([], rest)
    | cs =>
      (value cs).bind fun (v, rest) =>
        match skipLines false rest with
        | ',' :: rest => (elements value fuel rest).map fun (vs, rest) => (v :: vs, rest)
        | ']' :: rest => some ([v], rest)
        | _ => none

/-- A key, an equals sign and a value, with the blanks around them. -/
def pair (value : Reader Value) : Reader (List String × Value) := fun cs =>
  (key cs).bind fun (path, rest) =>
    (mark '=' rest).bind fun ((), rest) =>
      (value (skipSpace rest)).map fun (v, rest) => ((path, v), skipSpace rest)

/-- The pairs of a table on one line, at most as many as the first argument says. -/
def pairs (value : Reader Value) : Nat → Reader (List (List String × Value))
  | 0, _ => none
  | fuel + 1, cs =>
    (pair value cs).bind fun (p, rest) =>
      match rest with
      | ',' :: rest => (pairs value fuel rest).map fun (ps, rest) => (p :: ps, rest)
      | '\x7d' :: rest => some ([p], rest)
      | _ => none

/-- The rest of a table on one line after its opening brace. -/
def inlineTable (value : Reader Value) : Reader Value := fun cs =>
  match skipSpace cs with
  | '\x7d' :: rest => some (.table [], rest)
  | cs =>
    (pairs value (cs.length + 1) cs).bind fun (ps, rest) =>
      (Item.insertKeys ps []).map fun items => (.table (Items.toEntries items), rest)

/-- A value, with at most `depth` arrays and tables inside each other. -/
def value : Nat → Reader Value := fun depth cs =>
  match cs with
  | [] => none
  | c :: rest =>
    if c = '"' ∨ c = '\'' then (text cs).map fun (s, rest) => (.text s, rest)
    else if c = '[' then
      match depth with
      | 0 => none
      | depth + 1 =>
        (elements (value depth) (rest.length + 1) rest).map fun (vs, rest) => (.list vs, rest)
    else if c = '\x7b' then
      match depth with
      | 0 => none
      | depth + 1 => inlineTable (value depth) rest
    else
      match cs with
      | 't' :: 'r' :: 'u' :: 'e' :: rest => some (.boolean true, rest)
      | 'f' :: 'a' :: 'l' :: 's' :: 'e' :: rest => some (.boolean false, rest)
      | cs =>
        match date cs with
        | some (s, rest) => some (.date s, rest)
        | none => (number cs).map fun ((), rest) => (.number, rest)

/-! ### Lines -/

/-- A header with the pairs after it. -/
structure Section where
  /-- Whether it opens another element of an array of tables. -/
  array : Bool
  /-- The path of the table; empty before the first header. -/
  path : List String
  /-- The pairs, in order. -/
  pairs : List (List String × Value)

/-- A header from its first bracket on. -/
def header : Reader (Bool × List String)
  | '[' :: '[' :: cs =>
    (key cs).bind fun (path, rest) =>
      match rest with
      | ']' :: ']' :: rest => some ((true, path), rest)
      | _ => none
  | '[' :: cs =>
    (key cs).bind fun (path, rest) =>
      match rest with
      | ']' :: rest => some ((false, path), rest)
      | _ => none
  | _ => none

/-- The sections of a document from the current one on, read line by line, at most as many lines as
the first argument says; `done` holds the pairs of the current section in reverse. -/
def sections : Nat → Bool → List String → List (List String × Value) → List Char →
    Option (List Section)
  | 0, _, _, _, _ => none
  | fuel + 1, array, path, done, cs =>
    let current : Section := ⟨array, path, done.reverse⟩
    match skipSpace cs with
    | [] => some [current]
    | c :: rest =>
      if c = '[' then
        (header (c :: rest)).bind fun ((array, path), rest) =>
          (endOfLine rest).bind fun rest =>
            (sections fuel array path [] rest).map (current :: ·)
      else if c = '#' ∨ c = '\n' ∨ c = '\x0d' then
        (endOfLine (c :: rest)).bind fun rest => sections fuel array path done rest
      else
        (pair (value depthLimit) (c :: rest)).bind fun (p, rest) =>
          (endOfLine rest).bind fun rest => sections fuel array path (p :: done) rest

/-- Writes the sections of a document, one after another. -/
def writeSections (sections : List Section) : Option Items :=
  sections.foldlM
    (fun items s =>
      if s.path = [] then Item.insertKeys s.pairs items
      else Item.insertSection s.array s.pairs s.path items)
    []

/-- The text without the mark of the byte order at its start. -/
def skipByteOrderMark : List Char → List Char
  | '\ufeff' :: cs => cs
  | cs => cs

/-- The table of a document. -/
def Value.ofDocument (source : String) : Option (List (String × Value)) :=
  let cs := skipByteOrderMark source.toList
  (sections (cs.length + 1) false [] [] cs).bind fun ss =>
    (writeSections ss).map Items.toEntries

end StyleTree.Toml
