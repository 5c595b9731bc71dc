import StyleTree.Css.Writer

/-!
# The writer and the blocks

The writer visits every node once and keeps texts and counts along the way. What it returns is the
text of the blocks that the nodes stand for, and what it reports is added to what was reported
before: the text never depends on the report.

## Main definitions

* `Css.report` — what there is to report about nodes

## Main results

* `writeAll_eq` — the draft after some nodes
* `renderAfter_eq` — the text and the report of the writer
-/

namespace StyleTree

namespace Css

variable {ctx : Context} {selectors : Selectors} {nodes : List Node}

/-- What there is to report about nodes that are written on their own. -/
def report (ctx : Context) (selectors : Selectors) (nodes : List Node) : Tally :=
  ⟨ruleCount (blocks ctx selectors nodes), declarationCount (blocks ctx selectors nodes),
    unresolved ctx nodes⟩

/-! ### The rule of a scope -/

theorem Declaration.text_ne_empty (d : Declaration) : d.text ≠ "" := by
  simp [Declaration.text]

/-- The line of declarations is empty only if there are none. -/
theorem join_text_eq_empty_iff {ds : List Declaration} :
    String.join (ds.map Declaration.text) = "" ↔ ds = [] := by
  cases ds with
  | nil => simp
  | cons d ds =>
    rw [List.map_cons, String.join_cons, String.append_eq_empty_iff]
    simp [d.text_ne_empty]

theorem ruleCount_ownRule :
    ruleCount (ownRule ctx selectors nodes) = if declarations ctx nodes = [] then 0 else 1 := by
  unfold ownRule
  cases declarations ctx nodes <;> simp [ruleCount, Block.ruleCount]

theorem declarationCount_ownRule :
    declarationCount (ownRule ctx selectors nodes) = (declarations ctx nodes).length := by
  unfold ownRule
  cases declarations ctx nodes <;> simp [declarationCount, Block.declarationCount]

/-- A finished draft puts the rule of the scope before what stands inside. -/
theorem finish_eq (nested : List Block) (t : Tally) :
    Draft.finish selectors
        ⟨String.join ((declarations ctx nodes).map Declaration.text), text nested, t⟩ =
      ⟨text (ownRule ctx selectors nodes ++ nested),
        t.add ⟨ruleCount (ownRule ctx selectors nodes), 0, []⟩⟩ := by
  rw [text_append, ruleCount_ownRule]
  cases hds : declarations ctx nodes with
  | nil => simp [Draft.finish, ownRule, hds, text, Tally.add]
  | cons d ds =>
    -- The writer knows a scope with declarations by the line not being empty.
    have hne : String.join ((d :: ds).map Declaration.text) ≠ "" :=
      fun h => List.cons_ne_nil d ds (join_text_eq_empty_iff.mp h)
    rw [Draft.finish, if_neg hne]
    simp [ownRule, hds, text, Block.text, declarationsText, String.append_assoc]

/-! ### The draft of a scope -/

/-- After some nodes their declarations stand on the line of the draft and the blocks of their
scopes behind it. -/
theorem writeAll_eq (nodes : List Node) (selectors : Selectors) (d : Draft) :
    Node.writeAll ctx selectors nodes d =
      ⟨d.declarations ++ String.join ((declarations ctx nodes).map Declaration.text),
        d.nested ++ text (Node.nestedBlocks ctx selectors nodes),
        d.tally.add ⟨ruleCount (Node.nestedBlocks ctx selectors nodes),
          (declarations ctx nodes).length +
            declarationCount (Node.nestedBlocks ctx selectors nodes),
          unresolved ctx nodes⟩⟩ := by
  -- The induction is for every draft, since each node is written behind those before it.
  induction nodes using Node.induction generalizing selectors d with
  | nil =>
    simp [Node.writeAll, declarations, Node.nestedBlocks, text, ruleCount, declarationCount,
      unresolved, Tally.add]
  | declaration property v rest ih =>
    rw [Node.writeAll, ih]
    simp [Node.write, Draft.declare, declarations, Node.nestedBlocks, Node.blocks, unresolved,
      Node.unresolved, Tally.add, String.append_assoc]
    omega
  | scope kind selector children rest ihchildren ih =>
    rw [Node.writeAll, ih, Node.write, ihchildren]
    -- The draft of the scope inside is finished before it is put behind the others.
    have hinner := @finish_eq ctx (selectors.enter kind selector) children
    simp only [Draft.blank, String.empty_append, hinner]
    cases kind <;>
      simp [Draft.enclose, declarations, Node.nestedBlocks, Node.blocks, unresolved,
        Node.unresolved, Tally.add, text, Block.text, ruleCount, Block.ruleCount, declarationCount,
        Block.declarationCount, text_append, ruleCount_append, declarationCount_append,
        declarationCount_ownRule, String.append_assoc] <;>
      omega

/-! ### The whole text -/

/-- The writer returns the text of the blocks and adds their report to the one before. -/
theorem renderAfter_eq (before : Tally) :
    renderAfter ctx before selectors nodes =
      ⟨text (blocks ctx selectors nodes), before.add (report ctx selectors nodes)⟩ := by
  rw [renderAfter, writeAll_eq]
  simp only [Draft.blank, String.empty_append, finish_eq, Tally.add_assoc]
  simp [blocks, report, Tally.add, ruleCount_append, declarationCount_append,
    declarationCount_ownRule, Nat.add_comm]

theorem render_eq :
    render ctx selectors nodes =
      ⟨text (blocks ctx selectors nodes), report ctx selectors nodes⟩ := by
  rw [render, renderAfter_eq, Tally.none_add]

end Css

end StyleTree
