import StyleTree.Json.Numeral
import StyleTree.Json.Text

/-!
# Values of any kind

The reader of a document whose values may be of any kind, the reader that only checks a value, and
the readers of values of one kind. Arrays and objects may stand inside each other up to 127 deep; a
value that is only checked may be nested at will.

## Main definitions

* `Value`, `Reader.value` — a JSON value and its reader
* `Reader.skipValue` — the check of a value that is not used
* `Reader.wrongKind` — the refusal of a value of the wrong kind
* `Reader.textValue`, `Reader.boolean`, `Reader.list`, `Reader.dictionary` — values of one kind
-/

namespace StyleTree.Json

/-- A JSON value. -/
inductive Value where
  /-- The null value. -/
  | null
  /-- A truth value. -/
  | boolean (b : Bool)
  /-- A number. -/
  | number (n : Numeral)
  /-- A text. -/
  | text (s : String)
  /-- An array. -/
  | list (elements : List Value)
  /-- An object, its members in order. -/
  | object (members : List (String × Value))

namespace Reader

variable {α : Type}

/-- The greatest number of arrays and objects that may stand inside each other. -/
def depthLimit : Nat := 127

/-- A value of any kind, with at most the given number of arrays and objects inside each other. -/
def value : Nat → Reader Value := fun depth cs =>
  match skipSpace cs with
  | [] => .error (.before .endInValue [])
  | c :: rest =>
    if c = 'n' then name .null ['u', 'l', 'l'] rest
    else if c = 't' then name (.boolean true) ['r', 'u', 'e'] rest
    else if c = 'f' then name (.boolean false) ['a', 'l', 's', 'e'] rest
    else if c = '-' ∨ c.isDigit then
      (Numeral.read (c :: rest)).map fun (n, rest) => (.number n, rest)
    else if c = '"' then (text rest).map fun (s, rest) => (.text s, rest)
    else if c = '[' then
      match depth with
      | 0 => .error (.inside .tooDeep (c :: rest))
      | depth + 1 =>
        (array (fun acc cs => (value depth cs).map fun (v, rest) => (v :: acc, rest)) [] rest).map
          fun (vs, rest) => (.list vs.reverse, rest)
    else if c = '\x7b' then
      match depth with
      | 0 => .error (.inside .tooDeep (c :: rest))
      | depth + 1 =>
        (object text
          (fun acc k cs =>
            match colon cs with
            | .error fault => .error fault
            | .ok ((), cs) => (value depth cs).map fun (v, rest) => ((k, v) :: acc, rest))
          [] rest).map
          fun (vs, rest) => (.object vs.reverse, rest)
    else .error (.inside .valueMissing (c :: rest))

/-! ### Values that are not used -/

/-- What surrounds a value. -/
inductive Enclosure where
  /-- An array. -/
  | list
  /-- An object. -/
  | object
  deriving DecidableEq

namespace Enclosure

/-- The character at the end. -/
def closing : Enclosure → Char
  | .list => ']'
  | .object => '\x7d'

/-- The fault of a missing comma. -/
def separatorMissing : Enclosure → Cause
  | .list => .listSeparatorMissing
  | .object => .objectSeparatorMissing

/-- The fault of a document that ends too early. -/
def ends : Enclosure → Cause
  | .list => .endInList
  | .object => .endInObject

end Enclosure

/-- A key with its colon, from its opening quotation mark on. -/
def skipKey : Reader Unit := fun cs =>
  match skipSpace cs with
  | [] => .error (.before .endInObject [])
  | c :: rest =>
    if c = '"' then
      match skipText rest with
      | .error fault => .error fault
      | .ok ((), rest) => colon rest
    else .error (.inside .keyNotText (c :: rest))

/-- Checks a value without arrays and objects. -/
def skipLeaf : Reader Unit := fun cs =>
  match cs with
  | [] => .error (.before .endInValue [])
  | c :: rest =>
    if c = 'n' then name () ['u', 'l', 'l'] rest
    else if c = 't' then name () ['r', 'u', 'e'] rest
    else if c = 'f' then name () ['a', 'l', 's', 'e'] rest
    else if c = '-' ∨ c.isDigit then Numeral.skip (c :: rest)
    else if c = '"' then skipText rest
    else .error (.inside .valueMissing (c :: rest))

/-- Takes off the ends of the arrays and objects that end here, the innermost first, up to the comma
or the key that starts the next value: what is still open then, and the text before that value.
`afterValue` says whether the innermost one already has a value. -/
def closeAll (afterValue : Bool) :
    List Enclosure → List Char → Except Fault (List Enclosure × List Char)
  | [], cs => .ok ([], cs)
  | e :: outer, cs =>
    match skipSpace cs with
    | [] => .error (.before e.ends [])
    | c :: rest =>
      if c = e.closing then closeAll true outer rest
      else if afterValue then
        if c = ',' then .ok (e :: outer, rest) else .error (.inside e.separatorMissing (c :: rest))
      else .ok (e :: outer, c :: rest)

/-- Checks values until everything in `enclosures` has ended, at most as many as the first argument
says. -/
def skipFrom : Nat → List Enclosure → Reader Unit
  | 0, _, cs => .error (.before .endInValue cs)
  | fuel + 1, enclosures, cs =>
    let step (afterValue : Bool) (enclosures : List Enclosure) (rest : List Char) :
        Except Fault (Unit × List Char) :=
      match closeAll afterValue enclosures rest with
      | .error fault => .error fault
      | .ok ([], rest) => .ok ((), rest)
      | .ok (.list :: outer, rest) => skipFrom fuel (.list :: outer) rest
      | .ok (.object :: outer, rest) =>
        match skipKey rest with
        | .error fault => .error fault
        | .ok ((), rest) => skipFrom fuel (.object :: outer) rest
    match skipSpace cs with
    | '[' :: rest => step false (.list :: enclosures) rest
    | '\x7b' :: rest => step false (.object :: enclosures) rest
    | leaf =>
      match skipLeaf leaf with
      | .error fault => .error fault
      | .ok ((), rest) => step true enclosures rest

/-- Checks a value that is not used. Each step takes a character at least, so their number is
bounded by the length of the text. -/
def skipValue : Reader Unit := fun cs =>
  skipFrom (cs.length + 1) [] cs

/-! ### Values of one kind -/

/-- Refuses a value, of which the first character is known to be there, for being of the wrong kind.
A simple value is read first, and its own faults count. -/
def wrongKind (wanted : Wanted) (c : Char) (rest : List Char) : Fault :=
  let refuse (found : Found) (rest : List Char) : Fault := .before (.wrongKind found wanted) rest
  let refuseName (found : Found) (letters : List Char) : Fault :=
    match name found letters rest with
    | .error fault => fault
    | .ok (found, rest) => refuse found rest
  if c = 'n' then refuseName .null ['u', 'l', 'l']
  else if c = 't' then refuseName (.boolean true) ['r', 'u', 'e']
  else if c = 'f' then refuseName (.boolean false) ['a', 'l', 's', 'e']
  else if c = '-' ∨ c.isDigit then
    match Numeral.read (c :: rest) with
    | .error fault => fault
    | .ok (n, rest) => refuse n.found rest
  else if c = '"' then
    match text rest with
    | .error fault => fault
    | .ok (s, rest) => refuse (.text s) rest
  else if c = '[' then refuse .sequence (c :: rest)
  else if c = '\x7b' then refuse .map (c :: rest)
  else .inside .valueMissing (c :: rest)

/-- A text. -/
def textValue : Reader String := fun cs =>
  match skipSpace cs with
  | [] => .error (.before .endInValue [])
  | c :: rest => if c = '"' then text rest else .error (wrongKind .text c rest)

/-- A truth value. -/
def boolean : Reader Bool := fun cs =>
  match skipSpace cs with
  | [] => .error (.before .endInValue [])
  | c :: rest =>
    if c = 't' then name true ['r', 'u', 'e'] rest
    else if c = 'f' then name false ['a', 'l', 's', 'e'] rest
    else .error (wrongKind .boolean c rest)

/-- An array of values of one kind. -/
def list (element : Reader α) : Reader (List α) := fun cs =>
  match skipSpace cs with
  | [] => .error (.before .endInValue [])
  | c :: rest =>
    if c = '[' then
      (array (fun acc cs => (element cs).map fun (a, rest) => (a :: acc, rest)) [] rest).map
        fun (as, rest) => (as.reverse, rest)
    else .error (wrongKind .sequence c rest)

/-- The member of an object with values of one kind, added to those before it. -/
def addMember (member : Reader α) (acc : List (String × α)) (key : String) :
    Reader (List (String × α)) := fun cs =>
  match colon cs with
  | .error fault => .error fault
  | .ok ((), cs) => (member cs).map fun (a, rest) => ((key, a) :: acc, rest)

/-- An object with values of one kind: its members in order, of repeated keys too. -/
def dictionary (wanted : Wanted) (member : Reader α) : Reader (List (String × α)) := fun cs =>
  match skipSpace cs with
  | [] => .error (.before .endInValue [])
  | c :: rest =>
    if c = '\x7b' then
      (object text (addMember member) [] rest).map fun (ms, rest) => (ms.reverse, rest)
    else .error (wrongKind wanted c rest)

/-- Nothing for the null value, else a value of some kind. -/
def optional (value : Reader α) : Reader (Option α) := fun cs =>
  match skipSpace cs with
  | 'n' :: rest => name none ['u', 'l', 'l'] rest
  | cs => (value cs).map fun (a, rest) => (some a, rest)

end Reader

end StyleTree.Json
