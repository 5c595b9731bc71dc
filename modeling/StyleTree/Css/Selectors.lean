import StyleTree.Style.Node

/-!
# Selectors in effect

While a style tree is written, two selectors are in effect: the current one, under which the
declarations of the scope stand, and the top-level one, which an ampersand continues. Either can be
empty and is then stood in for by the other.

## Main definitions

* `Selectors` — the two selectors
* `Selectors.base`, `Selectors.rule` — the selector that an ampersand continues, and that of a rule
* `Selectors.enter` — the selectors inside a scope
-/

namespace StyleTree

/-- The selectors in effect in a scope. -/
structure Selectors where
  /-- The selector of the scope, empty at the top. -/
  current : String
  /-- The selector that the style tree is written for. -/
  topLevel : String
  deriving DecidableEq

namespace Selectors

/-- The selectors at the top of a style tree that is written for one selector. -/
def top (selector : String) : Selectors := ⟨"", selector⟩

/-- The selector that an ampersand continues: the top-level one unless it is empty. -/
def base (s : Selectors) : String :=
  if s.topLevel = "" then s.current else s.topLevel

/-- The selector of the rule with the scope's declarations: the current one unless it is empty. -/
def rule (s : Selectors) : String :=
  if s.current = "" then s.topLevel else s.current

/-- The selectors inside a scope. An at-rule starts again from the selector of the rule around it.
-/
def enter (s : Selectors) (kind : ScopeKind) (selector : String) : Selectors :=
  match kind with
  | .ampersand => ⟨s.base ++ selector, s.base⟩
  | .atRule => ⟨s.rule, s.rule⟩
  | .descendant => ⟨s.current ++ " " ++ selector, s.base⟩

end Selectors

end StyleTree
