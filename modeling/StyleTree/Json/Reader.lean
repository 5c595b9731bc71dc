import StyleTree.Json.Fault

/-!
# Readers

A reader takes the text that is left of a document, and gives a value with the text that is left
after it, or a fault. This module holds what readers of all shapes share: blanks, the three names,
and the loops over the members of an object and the elements of an array.

## Main definitions

* `Reader` — readers, with sequencing
* `Reader.name` — one of the names `true`, `false` and `null`
* `Reader.members`, `Reader.object` — the members of an object, folded in order
* `Reader.elements`, `Reader.array` — the elements of an array, folded in order
* `Reader.document` — a value with nothing but blanks after it
-/

namespace StyleTree.Json

/-- A reader of a part of a document. -/
abbrev Reader (α : Type) := List Char → Except Fault (α × List Char)

/-- The four blanks of JSON. -/
def isSpace (c : Char) : Bool :=
  c = ' ' || c = '\t' || c = '\n' || c = '\x0d'

/-- The text without the blanks at its start. -/
def skipSpace (cs : List Char) : List Char :=
  cs.dropWhile isSpace

namespace Reader

variable {α β σ : Type}

/-- The rest of a name, letter by letter; `value` is what the name stands for. -/
def name (value : α) : List Char → Reader α
  | [], cs => .ok (value, cs)
  | _ :: _, [] => .error (.before .endInValue [])
  | letter :: letters, c :: cs =>
    if c = letter then name value letters cs else .error (.inside .misspeltName (c :: cs))

/-- A colon, with blanks before it. -/
def colon : Reader Unit := fun cs =>
  match skipSpace cs with
  | [] => .error (.before .endInObject [])
  | c :: rest => if c = ':' then .ok ((), rest) else .error (.inside .colonMissing (c :: rest))

/-! ### Objects -/

/-- What comes next in an object: the end, or the text after the opening quotation mark of a key. -/
inductive NextMember where
  /-- The closing brace stands here. -/
  | close (rest : List Char)
  /-- A key starts before `rest`. -/
  | key (rest : List Char)

/-- Looks for the next member of an object, of which `first` says whether it would be the first
one. -/
def nextMember (first : Bool) (cs : List Char) : Except Fault NextMember :=
  match skipSpace cs with
  | [] => .error (.before .endInObject [])
  | c :: rest =>
    if c = '\x7d' then .ok (.close (c :: rest))
    else if first then
      if c = '"' then .ok (.key rest) else .error (.inside .keyNotText (c :: rest))
    else if c = ',' then
      match skipSpace rest with
      | [] => .error (.before .endInValue [])
      | d :: rest' =>
        if d = '"' then .ok (.key rest')
        else if d = '\x7d' then .error (.inside .trailingComma (d :: rest'))
        else .error (.inside .keyNotText (d :: rest'))
    else .error (.inside .objectSeparatorMissing (c :: rest))

/-- The members of an object up to its closing brace, at most as many as the first argument says.
`key` reads a key after its quotation mark, and `member` what follows it. -/
def members (key : Reader String) (member : σ → String → Reader σ) :
    Nat → Bool → σ → Reader σ
  | 0, _, _, cs => .error (.before .endInObject cs)
  | fuel + 1, first, acc, cs =>
    match nextMember first cs with
    | .error fault => .error fault
    | .ok (.close rest) => .ok (acc, rest)
    | .ok (.key rest) =>
      match key rest with
      | .error fault => .error fault
      | .ok (k, rest) =>
        match member acc k rest with
        | .error fault => .error fault
        | .ok (acc, rest) => members key member fuel false acc rest

/-- Takes off the end of an object as far as it stands there. -/
def closeObject (cs : List Char) : List Char :=
  match skipSpace cs with
  | [] => []
  | c :: rest => if c = '\x7d' then rest else c :: rest

/-- An object after its opening brace. Each member takes a character at least, so their number is
bounded by the length of the text. -/
def object (key : Reader String) (member : σ → String → Reader σ) (init : σ) : Reader σ := fun cs =>
  match members key member (cs.length + 1) true init cs with
  | .error fault => .error (fault.settle closeObject)
  | .ok (acc, rest) => .ok (acc, closeObject rest)

/-! ### Arrays -/

/-- Looks for the next element of an array: nothing if the closing bracket stands there. -/
def nextElement (first : Bool) (cs : List Char) : Except Fault (Option (List Char)) :=
  match skipSpace cs with
  | [] => .error (.before .endInList [])
  | c :: rest =>
    if c = ']' then .ok none
    else if first then .ok (some (c :: rest))
    else if c = ',' then
      match skipSpace rest with
      | [] => .error (.before .endInValue [])
      | d :: rest' =>
        if d = ']' then .error (.inside .trailingComma (d :: rest')) else .ok (some (d :: rest'))
    else .error (.inside .listSeparatorMissing (c :: rest))

/-- The elements of an array up to its closing bracket, at most as many as the first argument
says. -/
def elements (element : σ → Reader σ) : Nat → Bool → σ → Reader σ
  | 0, _, _, cs => .error (.before .endInList cs)
  | fuel + 1, first, acc, cs =>
    match nextElement first cs with
    | .error fault => .error fault
    | .ok none => .ok (acc, skipSpace cs)
    | .ok (some rest) =>
      match element acc rest with
      | .error fault => .error fault
      | .ok (acc, rest) => elements element fuel false acc rest

/-- Takes off the end of an array as far as it stands there; a comma is taken off, too, with the
blanks after it. -/
def closeArray (cs : List Char) : List Char :=
  match skipSpace cs with
  | [] => []
  | c :: rest => if c = ']' then rest else if c = ',' then skipSpace rest else c :: rest

/-- The end of an array, where it has to stand. -/
def endArray : Reader Unit := fun cs =>
  match skipSpace cs with
  | [] => .error (.before .endInList [])
  | c :: rest =>
    if c = ']' then .ok ((), rest)
    else if c = ',' then
      match skipSpace rest with
      | ']' :: rest' => .error (.inside .trailingComma (']' :: rest'))
      | rest' => .error (.inside .trailingText rest')
    else .error (.inside .trailingText (c :: rest))

/-- An array after its opening bracket. -/
def array (element : σ → Reader σ) (init : σ) : Reader σ := fun cs =>
  match elements element (cs.length + 1) true init cs with
  | .error fault => .error (fault.settle closeArray)
  | .ok (acc, rest) => .ok (acc, closeArray rest)

/-! ### Documents -/

/-- A document that holds one value, with nothing but blanks after it. -/
def document (value : Reader α) (source : String) : Except Complaint α :=
  let cs := source.toList
  match value cs with
  | .error fault => .error (.of cs fault)
  | .ok (a, rest) =>
    match skipSpace rest with
    | [] => .ok a
    | c :: rest => .error (.of cs (.inside .trailingText (c :: rest)))

end Reader

end StyleTree.Json
