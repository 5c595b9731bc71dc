import StyleTree.Context

/-!
# Configurations

A configuration says what to change in a context before a compilation. Every field is optional; what
is not given stays as it is. The tables are laid over those of the context, either the built-in ones
or none.

## Main definitions

* `Config` — the fields of a configuration
* `Config.apply` — a context changed by a configuration
* `Config.context` — the standard context changed by a configuration

## Main results

* `apply_empty` — a configuration without fields changes nothing
-/

namespace StyleTree

/-- What to change before a compilation. -/
structure Config where
  /-- The first part of generated class names. -/
  family : Option String := none
  /-- Shorthands for properties. -/
  propertyAliases : Option (Table (List String)) := none
  /-- Texts of scope keys. -/
  keyAliases : Option (Table String) := none
  /-- Design tokens. -/
  tokens : Option TokenTree := none
  /-- Groups in which references start. -/
  tokenGroups : Option (Table String) := none
  /-- Whether the tables of the context are emptied first. -/
  resetDefaults : Option Bool := none
  /-- Whether a token reference that does not resolve is an error. -/
  strict : Option Bool := none
  deriving DecidableEq

namespace Config

/-- The table with those of a configuration written over it, if it has any. -/
def overlay {α : Type} (given : Option (Table α)) (table : Table α) : Table α :=
  match given with
  | none => table
  | some given => table.extend given.entries

/-- The context changed by a configuration. -/
def apply (config : Config) (ctx : Context) : Context :=
  let base := if config.resetDefaults.getD false then .empty else ctx
  { propertyAliases := overlay config.propertyAliases base.propertyAliases
    keyAliases := overlay config.keyAliases base.keyAliases
    tokens := match config.tokens with
      | none => base.tokens
      | some tokens => base.tokens.merge tokens
    tokenGroups := overlay config.tokenGroups base.tokenGroups }

/-- The context of a command with the configuration. -/
def context (config : Config) : Context :=
  config.apply .standard

/-- A configuration without fields changes nothing. -/
theorem apply_empty {ctx : Context} : ({} : Config).apply ctx = ctx := rfl

end Config

end StyleTree
