import StyleTree.Config.JsonFormat
import StyleTree.Config.TomlFormat
import StyleTree.Error

/-!
# Configuration documents

The name of a configuration says in which format it is: it ends in `.json` or in `.toml`, in small
letters.

## Main definitions

* `Config.ofDocument` — the configuration of a document, with the errors of a compilation
-/

namespace StyleTree.Config

/-- Whether a file name ends in a text. -/
def endsIn (ending filename : String) : Bool :=
  ending.toList.isSuffixOf filename.toList

/-- The configuration of a document. -/
def ofDocument (source filename : String) : Except StyleError Config :=
  if endsIn ".json" filename then (ofJson source).mapError (.badJsonConfig filename)
  else if endsIn ".toml" filename then
    match ofToml? source with
    | some config => .ok config
    | none => .error (.badTomlConfig filename)
  else .error .unknownConfigFormat

end StyleTree.Config
