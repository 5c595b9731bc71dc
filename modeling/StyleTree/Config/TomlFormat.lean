import StyleTree.Config.Basic
import StyleTree.Toml.Document

/-!
# Configurations as TOML

A configuration is a table with the fields by name. Entries with other names are left out; a field
of another kind makes the whole configuration unusable.

## Main definitions

* `Config.ofTable?` — the configuration of a table
* `Config.ofToml?` — the configuration of a document
-/

namespace StyleTree

open Toml (Value)

/-- The text that a value is. -/
def Toml.Value.text? : Value → Option String
  | .text s => some s
  | _ => none

/-- The truth value that a value is. -/
def Toml.Value.boolean? : Value → Option Bool
  | .boolean b => some b
  | _ => none

/-- The texts that the elements of an array are. -/
def Toml.Value.texts? : Value → Option (List String)
  | .list vs => vs.mapM Value.text?
  | _ => none

/-- The table whose values are all of one kind. -/
def Toml.Value.table? {α : Type} (kind : Value → Option α) : Value → Option (Table α)
  | .table es => (es.mapM fun (e : String × Value) => (kind e.2).map (e.1, ·)).map Table.ofList
  | _ => none

mutual

/-- The token that a value is. -/
def Token.ofToml? : Value → Option Token
  | .text s => some (.value s)
  | .table es => (TokenTree.ofToml? [] es).map .group
  | _ => none

/-- The entries of a table as tokens, written over those of a tree. -/
def TokenTree.ofToml? (tree : TokenTree) : List (String × Value) → Option TokenTree
  | [] => some tree
  | (key, v) :: rest =>
    match Token.ofToml? v with
    | none => none
    | some token => TokenTree.ofToml? (Entries.insertSorted key token tree) rest

end

/-- The token tree that a value is. -/
def Toml.Value.tokens? : Value → Option TokenTree
  | .table es => TokenTree.ofToml? [] es
  | _ => none

namespace Config

/-- The value of a field: missing, or of the right kind. -/
def field? {α : Type} (kind : Value → Option α) (name : String) (es : List (String × Value)) :
    Option (Option α) :=
  match es.lookup name with
  | none => some none
  | some v => (kind v).map some

/-- The configuration of a table. -/
def ofTable? (es : List (String × Value)) : Option Config := do
  return {
    family := ← field? Value.text? "class_prefix" es
    propertyAliases := ← field? (Value.table? Value.texts?) "property_aliases" es
    keyAliases := ← field? (Value.table? Value.text?) "key_aliases" es
    tokens := ← field? Value.tokens? "tokens" es
    tokenGroups := ← field? (Value.table? Value.text?) "token_groups" es
    resetDefaults := ← field? Value.boolean? "reset_defaults" es
    strict := ← field? Value.boolean? "strict_tokens" es }

/-- The configuration of a document. -/
def ofToml? (source : String) : Option Config :=
  (Value.ofDocument source).bind ofTable?

end Config

end StyleTree
