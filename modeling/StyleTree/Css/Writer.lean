import StyleTree.Css.Stylesheet

/-!
# Writing nodes

Nodes are written in one pass. While the nodes of a scope are visited, their declarations gather on
one line and the text of the scopes inside gathers behind it; when all are visited, the line becomes
the rule that stands first. The report about everything written is kept along the way, so one writer
can serve several groups of nodes.

## Main definitions

* `Css.Tally` — what is reported about written nodes
* `Css.Draft` — a scope of which some nodes are written
* `Node.write`, `Node.writeAll` — a node, and the nodes of a scope, written into a draft
* `Css.Rendering`, `Css.render` — the text of nodes with the report about it
* `Css.renderAll` — several groups of nodes by one writer
-/

namespace StyleTree

namespace Css

/-- What is reported about written nodes. -/
structure Tally where
  /-- The number of rules. -/
  rules : Nat
  /-- The number of declarations. -/
  declarations : Nat
  /-- The references written as `undefined`. -/
  unresolved : List Unresolved
  deriving DecidableEq

namespace Tally

/-- The report about nothing. -/
def none : Tally := ⟨0, 0, []⟩

/-- The report about two things together. -/
def add (t u : Tally) : Tally :=
  ⟨t.rules + u.rules, t.declarations + u.declarations, t.unresolved ++ u.unresolved⟩

theorem none_add (t : Tally) : none.add t = t := by
  simp [none, add]

theorem add_assoc (t u v : Tally) : (t.add u).add v = t.add (u.add v) := by
  simp [add, Nat.add_assoc]

end Tally

/-- Written nodes. -/
structure Rendering where
  /-- The style sheet. -/
  css : String
  /-- What is reported about everything written up to it. -/
  tally : Tally
  deriving DecidableEq

/-- A scope of which some nodes are written. -/
structure Draft where
  /-- The declarations of the scope itself, with a blank after each. -/
  declarations : String
  /-- The text of the scopes inside it. -/
  nested : String
  /-- What is reported about everything written up to here. -/
  tally : Tally

namespace Draft

/-- A scope of which nothing is written yet. -/
def blank (tally : Tally) : Draft := ⟨"", "", tally⟩

/-- Writes a declaration of the scope itself. -/
def declare (ctx : Context) (property : String) (v : Scalar) (d : Draft) : Draft :=
  { declarations := d.declarations ++ (declaration ctx property v).text
    nested := d.nested
    tally := d.tally.add ⟨0, 1, unresolvedValue ctx (Text.hyphenate property) v⟩ }

/-- Writes a scope inside, of which the text is known; an at-rule puts its header around it. -/
def enclose (kind : ScopeKind) (selector : String) (inner : Rendering) (d : Draft) : Draft :=
  { declarations := d.declarations
    nested := d.nested ++ match kind with
      | .atRule => selector ++ " \x7b\n" ++ inner.css ++ "\x7d\n"
      | .ampersand | .descendant => inner.css
    tally := inner.tally }

/-- The text of a scope of which all nodes are written. Without declarations of its own it has no
rule. -/
def finish (selectors : Selectors) (d : Draft) : Rendering :=
  if d.declarations = "" then ⟨d.nested, d.tally⟩
  else
    ⟨selectors.rule ++ " \x7b " ++ Text.trim d.declarations ++ " \x7d\n" ++ d.nested,
      d.tally.add ⟨1, 0, []⟩⟩

end Draft

end Css

mutual

/-- Writes a node into the draft of the scope that it stands in. -/
def Node.write (ctx : Context) (selectors : Selectors) : Node → Css.Draft → Css.Draft
  | .declaration property v, d => d.declare ctx property v
  | .scope kind selector children, d =>
    let inner := selectors.enter kind selector
    d.enclose kind selector ((Node.writeAll ctx inner children (.blank d.tally)).finish inner)

/-- Writes nodes one after another into the draft of the scope that they stand in. -/
def Node.writeAll (ctx : Context) (selectors : Selectors) : List Node → Css.Draft → Css.Draft
  | [], d => d
  | node :: rest, d => Node.writeAll ctx selectors rest (node.write ctx selectors d)

end

namespace Css

/-- Writes nodes under the given selectors, with the report about what was written before. -/
def renderAfter (ctx : Context) (before : Tally) (selectors : Selectors) (nodes : List Node) :
    Rendering :=
  (Node.writeAll ctx selectors nodes (.blank before)).finish selectors

/-- Writes nodes under the given selectors. -/
def render (ctx : Context) (selectors : Selectors) (nodes : List Node) : Rendering :=
  renderAfter ctx .none selectors nodes

/-- Writes a style tree, as it is, under the given selectors. -/
def renderSheet (ctx : Context) (selectors : Selectors) (es : Sheet) : Rendering :=
  render ctx selectors (Node.ofSheet ctx.keyAliases es)

/-- Writes one group of nodes after another, each under its own selectors: the texts, each with the
report about everything written up to it. -/
def renderAll (ctx : Context) : Tally → List (Selectors × List Node) → List Rendering
  | _, [] => []
  | before, (selectors, nodes) :: rest =>
    let rendering := renderAfter ctx before selectors nodes
    rendering :: renderAll ctx rendering.tally rest

end Css

end StyleTree
