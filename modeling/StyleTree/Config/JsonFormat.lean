import StyleTree.Config.Basic
import StyleTree.Token.Document

/-!
# Configurations as JSON

A configuration is an object with the fields by name, or an array with all fields in order. A field
may be null, which is as if it were missing. Members with other names are checked and left out; a
field that is given twice is refused.

## Main definitions

* `Config.Field` — the fields, with their names
* `Config.read` — the reader of a configuration
* `Config.ofJson` — the configuration of a document
-/

namespace StyleTree.Config

open Json (Reader)

/-- The fields of a configuration, in order. -/
inductive Field where
  /-- The first part of class names. -/
  | family
  /-- Shorthands. -/
  | propertyAliases
  /-- Texts of scope keys. -/
  | keyAliases
  /-- Design tokens. -/
  | tokens
  /-- Groups of references. -/
  | tokenGroups
  /-- Whether to start from empty tables. -/
  | resetDefaults
  /-- Whether references must resolve. -/
  | strict
  deriving DecidableEq

namespace Field

/-- All fields, in order. -/
def all : List Field :=
  [.family, .propertyAliases, .keyAliases, .tokens, .tokenGroups, .resetDefaults, .strict]

/-- The name of a field in a document. -/
def name : Field → String
  | .family => "class_prefix"
  | .propertyAliases => "property_aliases"
  | .keyAliases => "key_aliases"
  | .tokens => "tokens"
  | .tokenGroups => "token_groups"
  | .resetDefaults => "reset_defaults"
  | .strict => "strict_tokens"

/-- The field of a name. -/
def ofName? (name : String) : Option Field :=
  all.find? fun field => field.name = name

end Field

/-- The greatest nesting in a token: the configuration and the token tree are around it. -/
def tokenDepth : Nat := Reader.depthLimit - 2

/-- The value of a field, written into a configuration. -/
def readField (config : Config) (field : Field) : Reader Config := fun cs =>
  let set {α : Type} (value : Reader α) (write : Option α → Config) :
      Except Json.Fault (Config × List Char) :=
    (Reader.optional value cs).map fun (a, rest) => (write a, rest)
  match field with
  | .family => set Reader.textValue fun a => { config with family := a }
  | .propertyAliases => set Table.readLists fun a => { config with propertyAliases := a }
  | .keyAliases => set Table.readTexts fun a => { config with keyAliases := a }
  | .tokens => set (TokenTree.read tokenDepth) fun a => { config with tokens := a }
  | .tokenGroups => set Table.readTexts fun a => { config with tokenGroups := a }
  | .resetDefaults => set Reader.boolean fun a => { config with resetDefaults := a }
  | .strict => set Reader.boolean fun a => { config with strict := a }

/-- A member of a configuration after its key, with the fields given so far. -/
def member (state : Config × List Field) (key : String) : Reader (Config × List Field) := fun cs =>
  match Field.ofName? key with
  | none =>
    match Reader.colon cs with
    | .error fault => .error fault
    | .ok ((), cs) => (Reader.skipValue cs).map fun ((), rest) => (state, rest)
  | some field =>
    if field ∈ state.2 then .error (.waiting (.duplicateField key) cs)
    else
      match Reader.colon cs with
      | .error fault => .error fault
      | .ok ((), cs) =>
        (readField state.1 field cs).map fun (config, rest) => ((config, field :: state.2), rest)

/-- The fields of a configuration in order, as elements of an array; `count` fields are read
already. -/
def readFields (config : Config) (count : Nat) : List Field → Reader Config
  | [], cs => .ok (config, cs)
  | field :: fields, cs =>
    match Reader.nextElement (count = 0) cs with
    | .error fault => .error fault
    | .ok none => .error (.waiting (.tooFewElements count) (Json.skipSpace cs))
    | .ok (some rest) =>
      match readField config field rest with
      | .error fault => .error fault
      | .ok (config, rest) => readFields config (count + 1) fields rest

/-- A configuration. -/
def read : Reader Config := fun cs =>
  match Json.skipSpace cs with
  | [] => .error (.before .endInValue [])
  | c :: rest =>
    if c = '\x7b' then
      (Reader.object Reader.text member ({}, []) rest).map fun (state, rest) => (state.1, rest)
    else if c = '[' then
      match readFields {} 0 Field.all rest with
      | .error fault => .error (fault.settle Reader.closeArray)
      | .ok (config, rest) => (Reader.endArray rest).map fun ((), rest) => (config, rest)
    else .error (Reader.wrongKind .configuration c rest)

/-- The configuration of a document. -/
def ofJson (source : String) : Except Json.Complaint Config :=
  Reader.document read source

end StyleTree.Config
