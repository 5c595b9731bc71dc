import StyleTree.Style.Expansion
import StyleTree.Token.Reference

/-!
# Contexts

A context holds every table that a compilation reads. Contexts are values, so two compilations never
see each other's configuration.

## Main definitions

* `Context` — the alias tables, the tokens and the token groups
* `Context.standard`, `Context.empty` — the built-in tables, and no tables at all
* `Context.expand` — expansion by the alias tables of a context
* `Context.resolve?` — a token reference in a context
-/

namespace StyleTree

/-- The tables that a compilation reads. -/
structure Context where
  /-- The shorthands for properties. -/
  propertyAliases : PropertyAliases
  /-- The texts of aliased scope keys. -/
  keyAliases : KeyAliases
  /-- The design tokens. -/
  tokens : TokenTree
  /-- The groups in which references start. -/
  tokenGroups : TokenGroups
  deriving DecidableEq

namespace Context

/-- The context with every table empty. -/
def empty : Context := ⟨∅, ∅, [], ∅⟩

/-- The context with the built-in shorthands and token groups. -/
def standard : Context := ⟨PropertyAliases.defaults, ∅, [], TokenGroups.defaults⟩

/-- Whether every table is empty. -/
def isEmpty (ctx : Context) : Bool :=
  ctx.propertyAliases.entries.isEmpty && ctx.keyAliases.entries.isEmpty &&
    ctx.tokens.isEmpty && ctx.tokenGroups.entries.isEmpty

/-- The style tree with the aliases of the context replaced. -/
def expand (ctx : Context) (es : Sheet) : Sheet :=
  es.expand ctx.propertyAliases ctx.keyAliases

/-- The value that a token reference stands for in a declaration of the property. -/
def resolve? (ctx : Context) (property reference : String) : Option String :=
  ctx.tokens.resolve? ctx.tokenGroups property reference

end Context

end StyleTree
