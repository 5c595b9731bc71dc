import StyleTree.Json.Value
import StyleTree.Style.Basic

/-!
# Style documents

A style document is a JSON object whose values are texts, numbers and again such objects. Of a
repeated key the first occurrence gives the position and the last one the value. The document is
read from front to back, and the first fault counts, be it one of syntax or one of shape.

## Main definitions

* `Sheet.member` — a member of a style document, written over those before it
* `Style.read` — the reader of a value, with a bound on the depth of nesting
* `Sheet.read` — the reader of a whole tree
* `Sheet.ofJson` — the tree of a document
-/

namespace StyleTree

open Json (Reader)

/-- A member of a style tree after its key, with the reader for its value. -/
def Sheet.member (value : Reader Style) (es : Sheet) (key : String) : Reader Sheet := fun cs =>
  match Reader.colon cs with
  | .error fault => .error fault
  | .ok ((), cs) => (value cs).map fun (s, rest) => (Entries.insert key s es, rest)

/-- A value of a style tree, with at most `depth` objects inside each other. -/
def Style.read : Nat → Reader Style := fun depth cs =>
  let refuse (found : Json.Found) (rest : List Char) : Except Json.Fault (Style × List Char) :=
    .error (.before (.wrongKind found .styleValue) rest)
  let refuseName (found : Json.Found) (letters cs : List Char) :=
    match Reader.name found letters cs with
    | .error fault => .error fault
    | .ok (found, rest) => refuse found rest
  match Json.skipSpace cs with
  | [] => .error (.before .endInValue [])
  | c :: rest =>
    if c = 'n' then refuseName .null ['u', 'l', 'l'] rest
    else if c = 't' then refuseName (.boolean true) ['r', 'u', 'e'] rest
    else if c = 'f' then refuseName (.boolean false) ['a', 'l', 's', 'e'] rest
    else if c = '-' ∨ c.isDigit then
      (Json.Numeral.read (c :: rest)).map fun (n, rest) => (.scalar (.number n.toNumber), rest)
    else if c = '"' then
      (Reader.text rest).map fun (s, rest) => (.scalar (.text s), rest)
    else if c = '[' then
      match depth with
      | 0 => .error (.inside .tooDeep (c :: rest))
      | _ + 1 => refuse .sequence (Reader.closeArray rest)
    else if c = '\x7b' then
      match depth with
      | 0 => .error (.inside .tooDeep (c :: rest))
      | depth + 1 =>
        (Reader.object Reader.text (Sheet.member (Style.read depth)) [] rest).map
          fun (es, rest) => (.scope es, rest)
    else .error (.inside .valueMissing (c :: rest))

/-- A whole style tree. -/
def Sheet.read : Reader Sheet := fun cs =>
  match Json.skipSpace cs with
  | [] => .error (.before .endInValue [])
  | c :: rest =>
    if c = '\x7b' then
      Reader.object Reader.text (Sheet.member (Style.read (Reader.depthLimit - 1))) [] rest
    else .error (Reader.wrongKind .sheet c rest)

/-- The style tree of a document. -/
def Sheet.ofJson (source : String) : Except Json.Complaint Sheet :=
  Reader.document Sheet.read source

end StyleTree
