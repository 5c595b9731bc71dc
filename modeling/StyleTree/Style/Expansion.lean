import StyleTree.Alias
import StyleTree.Style.Basic

/-!
# Expansion

Expansion replaces the aliases in a style tree by what they stand for. A declaration becomes one
declaration for each property that its key stands for, and a scope gets the alias text of its key
and an expanded content. The results are written one after another, so of two that meet at one key
the first gives the position and the last gives the value.

## Main definitions

* `Sheet.contributions` — what the entries of a tree write, in order
* `Sheet.expand` — the tree that results from the writes

## Main results

* `nodup_keys_expand` — no key of an expanded tree is repeated
-/

namespace StyleTree

mutual

/-- What an entry with the given key and value writes. -/
def Style.contributions (properties : PropertyAliases) (keys : KeyAliases) (key : String) :
    Style → List (String × Style)
  | .scalar v => (properties.targets key).map fun target => (target, .scalar v)
  | .scope es =>
    [(keys.resolve key, .scope (Entries.ofList (Sheet.contributions properties keys es)))]

/-- What the entries of a tree write, in order. -/
def Sheet.contributions (properties : PropertyAliases) (keys : KeyAliases) :
    List (String × Style) → List (String × Style)
  | [] => []
  | (key, s) :: rest =>
    s.contributions properties keys key ++ Sheet.contributions properties keys rest

end

/-- The tree with all aliases replaced. -/
def Sheet.expand (properties : PropertyAliases) (keys : KeyAliases) (es : Sheet) : Sheet :=
  Entries.ofList (Sheet.contributions properties keys es)

/-- No key of an expanded tree is repeated. -/
theorem Sheet.nodup_keys_expand {properties : PropertyAliases} {keys : KeyAliases} {es : Sheet} :
    (Entries.keys (es.expand properties keys)).Nodup :=
  Entries.nodup_keys_ofList

end StyleTree
