import StyleTree.Style.Basic
import StyleTree.Token.Tree

/-!
# Token references

A declaration refers to a token by a dollar sign and a path. For some properties the path starts in
a group of their own, so that `$small` means another token for a margin than for a font size.

## Main definitions

* `TokenGroups` — the group in which the references of a property start
* `TokenGroups.path?` — the path that a reference names
* `TokenTree.resolve?` — the value that a reference stands for
-/

namespace StyleTree

/-- The group in which the references of a property start. -/
abbrev TokenGroups := Table String

namespace TokenGroups

/-- Colours have a group of their own; margins and paddings share one. -/
def defaults : TokenGroups :=
  Table.ofList [("color", "color"), ("padding", "spacing"), ("margin", "spacing")]

/-- The path that a reference names for a property; nothing if the dollar sign is missing. -/
def path? (groups : TokenGroups) (property reference : String) : Option String :=
  match reference.toList with
  | [] => none
  | c :: cs =>
    if c = Scalar.sigil then
      match groups.get? property with
      | some group => some (group ++ "." ++ String.ofList cs)
      | none => some (String.ofList cs)
    else none

end TokenGroups

namespace TokenTree

/-- The value that a reference stands for in a declaration of the property. The path must lead to a
value, not to a group. -/
def resolve? (tokens : TokenTree) (groups : TokenGroups) (property reference : String) :
    Option String :=
  (groups.path? property reference).bind fun path => (tokens.lookup path).bind Token.value?

end TokenTree

end StyleTree
