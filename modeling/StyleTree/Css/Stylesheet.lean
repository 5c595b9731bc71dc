import StyleTree.Context
import StyleTree.Css.Block
import StyleTree.Css.Selectors
import StyleTree.Style.Node
import StyleTree.Text.Hyphenation

/-!
# From nodes to blocks

The declarations that stand directly in a scope make one rule, which comes before the blocks of the
scopes inside it; a scope without declarations of its own makes no rule. A value that refers to a
token is written as the token's value. A reference that does not resolve is written as `undefined`
and reported, in the order of the style tree.

## Main definitions

* `Css.valueText`, `Css.declaration` — a declaration as it is written
* `Node.blocks`, `Css.blocks` — the blocks that nodes stand for
* `Node.unresolved`, `Css.unresolved` — the references that do not resolve
-/

namespace StyleTree

namespace Css

/-- A token reference that does not resolve, with the property it is written for. -/
structure Unresolved where
  /-- The hyphenated property. -/
  property : String
  /-- The reference, with its dollar sign. -/
  reference : String
  deriving DecidableEq

/-- What is written for a token reference that does not resolve. -/
def undefinedValue : String := "undefined"

/-- The text of a value in a declaration of the property. -/
def valueText (ctx : Context) (property : String) (v : Scalar) : String :=
  match v.reference? with
  | none => v.cssText
  | some reference => (ctx.resolve? property reference).getD undefinedValue

/-- The declaration of a property that is still in camel case. -/
def declaration (ctx : Context) (property : String) (v : Scalar) : Declaration :=
  ⟨Text.hyphenate property, valueText ctx (Text.hyphenate property) v⟩

/-- What a declaration reports: its reference if that does not resolve. -/
def unresolvedValue (ctx : Context) (property : String) (v : Scalar) : List Unresolved :=
  match v.reference? with
  | none => []
  | some reference =>
    if (ctx.resolve? property reference).isSome then [] else [⟨property, reference⟩]

/-- The declarations that stand directly among the nodes. -/
def declarations (ctx : Context) (nodes : List Node) : List Declaration :=
  nodes.filterMap fun
    | .declaration property v => some (declaration ctx property v)
    | .scope _ _ _ => none

/-- The rule with the declarations that stand directly among the nodes, if there are any. -/
def ownRule (ctx : Context) (selectors : Selectors) (nodes : List Node) : List Block :=
  match declarations ctx nodes with
  | [] => []
  | ds => [.rule selectors.rule ds]

end Css

mutual

/-- The blocks of a node that is a scope; a declaration has none. -/
def Node.blocks (ctx : Context) (selectors : Selectors) : Node → List Css.Block
  | .declaration _ _ => []
  | .scope kind selector children =>
    let inner := selectors.enter kind selector
    let blocks := Css.ownRule ctx inner children ++ Node.nestedBlocks ctx inner children
    match kind with
    | .atRule => [.atRule selector blocks]
    | .ampersand | .descendant => blocks

/-- The blocks of the scopes among the nodes, in order. -/
def Node.nestedBlocks (ctx : Context) (selectors : Selectors) : List Node → List Css.Block
  | [] => []
  | node :: rest => node.blocks ctx selectors ++ Node.nestedBlocks ctx selectors rest

end

mutual

/-- The references of a node that do not resolve. -/
def Node.unresolved (ctx : Context) : Node → List Css.Unresolved
  | .declaration property v => Css.unresolvedValue ctx (Text.hyphenate property) v
  | .scope _ _ children => Css.unresolved ctx children

/-- The references that do not resolve, in the order of the nodes. -/
def Css.unresolved (ctx : Context) : List Node → List Css.Unresolved
  | [] => []
  | node :: rest => node.unresolved ctx ++ Css.unresolved ctx rest

end

namespace Css

/-- The blocks of some nodes: the rule of their own declarations, then those of their scopes. -/
def blocks (ctx : Context) (selectors : Selectors) (nodes : List Node) : List Block :=
  ownRule ctx selectors nodes ++ Node.nestedBlocks ctx selectors nodes

end Css

end StyleTree
