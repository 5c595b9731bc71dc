import StyleTree.Json.Value
import StyleTree.Token.Reference

/-!
# Tables in documents

The tables of a context as JSON objects. Of a repeated key the last value counts. A token tree is
read as values of any kind first; what is no text and no object of tokens is refused then.

## Main definitions

* `Token.ofValue?`, `TokenTree.ofMembers?` — the token that a JSON value stands for
* `TokenTree.read` — the reader of a token tree
* `TokenTree.ofJson`, `Table.ofJson` — the tables of documents
-/

namespace StyleTree

open Json (Reader Value)

mutual

/-- The token that a JSON value stands for: a text is a value and an object is a group. -/
def Token.ofValue? : Value → Option Token
  | .text s => some (.value s)
  | .object members => (TokenTree.ofMembers? [] members).map .group
  | _ => none

/-- The members of an object as tokens, written over those of a tree. -/
def TokenTree.ofMembers? (tree : TokenTree) : List (String × Value) → Option TokenTree
  | [] => some tree
  | (key, v) :: rest =>
    match Token.ofValue? v with
    | none => none
    | some token => TokenTree.ofMembers? (Entries.insertSorted key token tree) rest

end

/-- A member of a token tree after its key. -/
def TokenTree.member (depth : Nat) (tree : TokenTree) (key : String) : Reader TokenTree := fun cs =>
  match Reader.colon cs with
  | .error fault => .error fault
  | .ok ((), cs) =>
    match Reader.value depth cs with
    | .error fault => .error fault
    | .ok (v, rest) =>
      match Token.ofValue? v with
      | none => .error (.waiting .notToken rest)
      | some token => .ok (Entries.insertSorted key token tree, rest)

/-- A token tree with at most `depth` arrays and objects inside each other in each member. -/
def TokenTree.read (depth : Nat) : Reader TokenTree := fun cs =>
  match Json.skipSpace cs with
  | [] => .error (.before .endInValue [])
  | c :: rest =>
    if c = '\x7b' then Reader.object Reader.text (TokenTree.member depth) [] rest
    else .error (Reader.wrongKind .map c rest)

/-- The token tree of a document. -/
def TokenTree.ofJson (source : String) : Except Json.Complaint TokenTree :=
  Reader.document (TokenTree.read (Reader.depthLimit - 1)) source

/-- A table of texts. -/
def Table.readTexts : Reader (Table String) := fun cs =>
  (Reader.dictionary .map Reader.textValue cs).map fun (es, rest) => (Table.ofList es, rest)

/-- A table of lists of texts. -/
def Table.readLists : Reader (Table (List String)) := fun cs =>
  (Reader.dictionary .map (Reader.list Reader.textValue) cs).map
    fun (es, rest) => (Table.ofList es, rest)

end StyleTree
