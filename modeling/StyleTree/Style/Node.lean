import StyleTree.Alias
import StyleTree.Style.Basic

/-!
# Scopes by kind

A style tree says by the first character of a key how the scope below it relates to the selector
around it. Nodes say it by their constructor: the text that tells the kind apart is taken off or
resolved once, so that later stages only look at the kind.

## Main definitions

* `ScopeKind`, `ScopeKind.ofKey` — the three kinds of scopes, told apart by the key
* `Node` — a declaration, or a scope with its kind and its selector
* `Node.ofSheet` — the nodes of a style tree, in order

## Main results

* `Node.induction`, `Node.induction_scopes` — induction over nodes, one or a level at a time
-/

namespace StyleTree

/-- How a scope relates to the selector around it. -/
inductive ScopeKind where
  /-- A descendant of what the current selector matches. -/
  | descendant
  /-- The base selector, continued. -/
  | ampersand
  /-- A block around the rule of the enclosing selector. -/
  | atRule
  deriving DecidableEq

namespace ScopeKind

/-- The kind of a scope by the first character of its key. -/
def ofKey (key : String) : ScopeKind :=
  match key.toList.head? with
  | some '&' => .ampersand
  | some '@' => .atRule
  | _ => .descendant

/-- The selector text of a scope with the given key: the key itself, the key without its ampersand,
or the header that the key stands for. -/
def selectorText (keys : KeyAliases) (kind : ScopeKind) (key : String) : String :=
  match kind with
  | .descendant => key
  | .ampersand => String.ofList key.toList.tail
  | .atRule => keys.resolve key

end ScopeKind

/-- A part of a style tree with the kind of each scope settled. -/
inductive Node where
  /-- A declaration, its property still in camel case. -/
  | declaration (property : String) (value : Scalar)
  /-- A scope: for an ampersand its selector is what follows the ampersand, for an at-rule the
  header. -/
  | scope (kind : ScopeKind) (selector : String) (children : List Node)

/-- Induction over nodes, one at a time. -/
theorem Node.induction {P : List Node → Prop} (nil : P [])
    (declaration : ∀ property v rest, P rest → P (.declaration property v :: rest))
    (scope : ∀ kind selector children rest, P children → P rest →
      P (.scope kind selector children :: rest))
    (nodes : List Node) : P nodes :=
  @Node.rec_1 (fun node => ∀ rest, P rest → P (node :: rest)) P
    (fun property v rest ih => declaration property v rest ih)
    (fun kind selector children ihchildren rest ih =>
      scope kind selector children rest ihchildren ih)
    nil
    (fun _ rest ihnode ihrest => ihnode rest ihrest)
    nodes

/-- Induction over nodes, a level at a time. -/
theorem Node.induction_scopes {P : List Node → Prop}
    (step : ∀ nodes, (∀ kind selector children, Node.scope kind selector children ∈ nodes →
      P children) → P nodes) (nodes : List Node) : P nodes := by
  refine step nodes ?_
  induction nodes using Node.induction with
  | nil => exact fun kind selector children h => absurd h List.not_mem_nil
  | declaration property v rest ih =>
    intro kind selector children h
    rcases List.mem_cons.mp h with heq | h
    · cases heq
    · exact ih kind selector children h
  | scope kind selector inner rest ihinner ih =>
    intro kind' selector' children h
    rcases List.mem_cons.mp h with heq | h
    · cases heq
      exact step inner ihinner
    · exact ih kind' selector' children h

mutual

/-- The node of an entry with the given key and value. -/
def Node.ofStyle (keys : KeyAliases) (key : String) : Style → Node
  | .scalar v => .declaration key v
  | .scope es =>
    .scope (ScopeKind.ofKey key) ((ScopeKind.ofKey key).selectorText keys key)
      (Node.ofSheet keys es)

/-- The nodes of a style tree, in order. -/
def Node.ofSheet (keys : KeyAliases) : List (String × Style) → List Node
  | [] => []
  | (key, s) :: rest => Node.ofStyle keys key s :: Node.ofSheet keys rest

end

end StyleTree
