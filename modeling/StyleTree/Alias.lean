import StyleTree.Table

/-!
# Aliases

Two tables let an author write less. A property alias stands for one or more properties, which all
get the value of the declaration. A key alias stands for the text of a scope's key, such as the
header of an at-rule.

## Main definitions

* `PropertyAliases`, `PropertyAliases.targets` — the properties that a key declares
* `PropertyAliases.defaults` — the shorthands for margins and paddings
* `KeyAliases`, `KeyAliases.resolve` — the text of a scope's key
-/

namespace StyleTree

/-- The properties that each shorthand stands for. -/
abbrev PropertyAliases := Table (List String)

namespace PropertyAliases

/-- The properties that a key declares: those that it is a shorthand for, else the key itself. -/
def targets (aliases : PropertyAliases) (key : String) : List String :=
  (aliases.get? key).getD [key]

/-- The shorthands for margins and paddings. -/
def defaults : PropertyAliases :=
  Table.ofList [
    ("m", ["margin"]),
    ("mb", ["marginBottom"]),
    ("ml", ["marginLeft"]),
    ("mr", ["marginRight"]),
    ("mt", ["marginTop"]),
    ("mx", ["marginLeft", "marginRight"]),
    ("my", ["marginTop", "marginBottom"]),
    ("p", ["padding"]),
    ("pb", ["paddingBottom"]),
    ("pl", ["paddingLeft"]),
    ("pr", ["paddingRight"]),
    ("pt", ["paddingTop"]),
    ("px", ["paddingLeft", "paddingRight"]),
    ("py", ["paddingTop", "paddingBottom"])]

theorem targets_of_get?_eq_none {aliases : PropertyAliases} {key : String}
    (h : aliases.get? key = none) : aliases.targets key = [key] := by
  simp [targets, h]

end PropertyAliases

/-- The text that each aliased scope key stands for. -/
abbrev KeyAliases := Table String

namespace KeyAliases

/-- The text of a scope's key: its alias text, else the key itself. -/
def resolve (aliases : KeyAliases) (key : String) : String :=
  (aliases.get? key).getD key

theorem resolve_empty (key : String) : resolve Table.empty key = key := by
  simp [resolve]

end KeyAliases

end StyleTree
