import Mathlib.Data.List.Forall2
import StyleTree.Proofs.Css.Writing

/-!
# Declarations and scopes in another arrangement

The writer gathers the declarations of a scope on one line and puts the scopes inside behind it, so
it forgets how the two were interleaved. Nodes are rearranged if, at every level, their declarations
are the same in the same order and their scopes correspond to each other in order. Their text and
their counts are then the same; the references that do not resolve are reported in the order of the
nodes, so these are the same in some order.

## Main definitions

* `Rearranged`, `Node.SameScope` — nodes with declarations and scopes in another arrangement
* `Node.Agree` — nodes that stand for the same blocks and report the same in some order

## Main results

* `Rearranged.agree` — rearranged nodes agree
* `Css.renderAfter_rearranged` — what the writer makes of them
-/

namespace StyleTree

/-- The node is a declaration. -/
def Node.isDeclaration : Node → Bool
  | .declaration _ _ => true
  | .scope _ _ _ => false

/-- The node is a scope. -/
def Node.isScope : Node → Bool
  | .declaration _ _ => false
  | .scope _ _ _ => true

mutual

/-- The nodes are scopes of one kind with one selector, and the nodes inside are rearranged. -/
inductive Node.SameScope : Node → Node → Prop where
  | scope {kind : ScopeKind} {selector : String} {children children' : List Node}
    (h : Rearranged children children') :
    Node.SameScope (.scope kind selector children) (.scope kind selector children')

/-- Both lists have the same declarations in order, and scopes that correspond in order. -/
inductive Rearranged : List Node → List Node → Prop where
  | level {nodes nodes' : List Node}
    (declarations : nodes.filter Node.isDeclaration = nodes'.filter Node.isDeclaration)
    (scopes : List.Forall₂ Node.SameScope (nodes.filter Node.isScope)
      (nodes'.filter Node.isScope)) :
    Rearranged nodes nodes'

end

variable {ctx : Context} {selectors : Selectors} {nodes nodes' : List Node}

/-! ### The two parts of a level -/

theorem declarations_filter_isDeclaration (nodes : List Node) :
    Css.declarations ctx (nodes.filter Node.isDeclaration) = Css.declarations ctx nodes := by
  rw [Css.declarations, Css.declarations, List.filterMap_filter]
  refine List.filterMap_congr fun node _ => ?_
  cases node <;> rfl

theorem nestedBlocks_filter_isScope (nodes : List Node) :
    Node.nestedBlocks ctx selectors (nodes.filter Node.isScope) =
      Node.nestedBlocks ctx selectors nodes := by
  induction nodes with
  | nil => rfl
  | cons node rest ih =>
    cases node with
    | declaration property v => exact ih
    | scope kind selector children =>
      rw [List.filter_cons_of_pos rfl, Node.nestedBlocks, Node.nestedBlocks, ih]

/-- What the declarations report and what the scopes report is all that is reported. -/
theorem unresolved_filter_perm (nodes : List Node) :
    (Css.unresolved ctx nodes).Perm (Css.unresolved ctx (nodes.filter Node.isDeclaration) ++
      Css.unresolved ctx (nodes.filter Node.isScope)) := by
  induction nodes with
  | nil => exact .refl _
  | cons node rest ih =>
    cases node with
    | declaration property v =>
      rw [List.filter_cons_of_pos rfl, List.filter_cons_of_neg Bool.false_ne_true, Css.unresolved,
        Css.unresolved, List.append_assoc]
      exact ih.append_left _
    | scope kind selector children =>
      -- The report of the scope comes behind that of all declarations.
      rw [List.filter_cons_of_neg Bool.false_ne_true, List.filter_cons_of_pos rfl, Css.unresolved,
        Css.unresolved]
      exact (ih.append_left _).trans (List.perm_append_comm_assoc _ _ _)

/-! ### Rearranged nodes -/

/-- The nodes stand for the same blocks under all selectors, and report the same references in some
order. -/
structure Node.Agree (ctx : Context) (nodes nodes' : List Node) : Prop where
  blocks : ∀ selectors, Css.blocks ctx selectors nodes = Css.blocks ctx selectors nodes'
  unresolved : (Css.unresolved ctx nodes).Perm (Css.unresolved ctx nodes')

/-- A scope passes its nodes on. -/
theorem Node.Agree.scope {children children' : List Node} (h : Node.Agree ctx children children')
    (selectors : Selectors) (kind : ScopeKind) (selector : String) :
    Node.blocks ctx selectors (.scope kind selector children) =
      Node.blocks ctx selectors (.scope kind selector children') := by
  have hinner : Css.ownRule ctx (selectors.enter kind selector) children ++
        Node.nestedBlocks ctx (selectors.enter kind selector) children =
      Css.ownRule ctx (selectors.enter kind selector) children' ++
        Node.nestedBlocks ctx (selectors.enter kind selector) children' := h.blocks _
  cases kind <;> simp only [Node.blocks, hinner]

/-- Scopes that correspond to each other in order are passed on alike if their nodes agree. -/
theorem agree_of_sameScope (ctx : Context) {scopes scopes' : List Node}
    (hscopes : List.Forall₂ Node.SameScope scopes scopes')
    (hinner : ∀ kind selector children, Node.scope kind selector children ∈ scopes →
      ∀ children', Rearranged children children' → Node.Agree ctx children children') :
    (∀ selectors, Node.nestedBlocks ctx selectors scopes =
        Node.nestedBlocks ctx selectors scopes') ∧
      (Css.unresolved ctx scopes).Perm (Css.unresolved ctx scopes') := by
  induction hscopes with
  | nil => exact ⟨fun _ => rfl, .refl _⟩
  | cons hscope _ ih =>
    obtain ⟨hblocks, hunresolved⟩ := ih fun kind selector children hmem =>
      hinner kind selector children (List.mem_cons_of_mem _ hmem)
    obtain @⟨kind, selector, children, children', hchildren⟩ := hscope
    have hagree := hinner kind selector children List.mem_cons_self children' hchildren
    constructor
    · intro selectors
      rw [Node.nestedBlocks, Node.nestedBlocks, hagree.scope, hblocks]
    · rw [Css.unresolved, Css.unresolved]
      exact hagree.unresolved.append hunresolved

theorem Rearranged.agree (h : Rearranged nodes nodes') : Node.Agree ctx nodes nodes' := by
  -- The scopes inside are rearranged too, so the induction is for every other arrangement.
  induction nodes using Node.induction_scopes generalizing nodes' with
  | step nodes ih =>
    obtain @⟨_, _, hdeclarations, hscopes⟩ := h
    obtain ⟨hnested, hunresolved⟩ := agree_of_sameScope ctx hscopes
      fun kind selector children hmem children' hchildren =>
        ih kind selector children (List.mem_of_mem_filter hmem) hchildren
    have hown : Css.declarations ctx nodes = Css.declarations ctx nodes' := by
      rw [← declarations_filter_isDeclaration, hdeclarations, declarations_filter_isDeclaration]
    constructor
    · intro selectors
      have hnested := hnested selectors
      rw [nestedBlocks_filter_isScope, nestedBlocks_filter_isScope] at hnested
      rw [Css.blocks, Css.blocks, Css.ownRule, Css.ownRule, hown, hnested]
    · -- Both reports are those of the declarations and behind them those of the scopes.
      refine (unresolved_filter_perm nodes).trans (.trans ?_ (unresolved_filter_perm nodes').symm)
      rw [hdeclarations]
      exact hunresolved.append_left _

namespace Css

/-- Rearranged nodes have the same text and the same counts, whatever was written before, and their
references that do not resolve are reported in some order. -/
theorem renderAfter_rearranged (h : Rearranged nodes nodes') (ctx : Context)
    (selectors : Selectors) (before : Tally) :
    let rendering := renderAfter ctx before selectors nodes
    let rendering' := renderAfter ctx before selectors nodes'
    rendering.css = rendering'.css ∧
      rendering.tally.rules = rendering'.tally.rules ∧
      rendering.tally.declarations = rendering'.tally.declarations ∧
      rendering.tally.unresolved.Perm rendering'.tally.unresolved := by
  intro rendering rendering'
  have hagree : Node.Agree ctx nodes nodes' := h.agree
  have hrendering : rendering = ⟨text (blocks ctx selectors nodes),
      before.add (report ctx selectors nodes)⟩ := renderAfter_eq before
  have hrendering' : rendering' = ⟨text (blocks ctx selectors nodes'),
      before.add (report ctx selectors nodes')⟩ := renderAfter_eq before
  rw [hrendering, hrendering', report, report, hagree.blocks selectors]
  exact ⟨rfl, rfl, rfl, hagree.unresolved.append_left _⟩

/-- Nodes that are rearranged on two levels: the text is the same, and the references are reported
in another order. -/
theorem renderAfter_rearranged_hover :
    let print : Node := .scope .atRule "@media print" [.declaration "color" (.text "$ink")]
    let accent : Node := .declaration "color" (.text "$accent")
    let brand : Node := .declaration "color" (.text "$brand")
    let margin : Node := .declaration "margin" (.text "0")
    let nodes : List Node := [.scope .ampersand ":hover" [print, accent], brand, margin]
    let nodes' : List Node := [brand, .scope .ampersand ":hover" [accent, print], margin]
    let rendering := renderAfter .empty .none (.top ".card") nodes
    let rendering' := renderAfter .empty .none (.top ".card") nodes'
    Rearranged nodes nodes' ∧
      rendering.css = rendering'.css ∧
      rendering.tally.unresolved.Perm rendering'.tally.unresolved ∧
      rendering.tally.unresolved ≠ rendering'.tally.unresolved := by
  intro print accent brand margin nodes nodes' rendering rendering'
  have hprint : Node.SameScope print print := .scope (.level rfl .nil)
  have hhover : Rearranged [print, accent] [accent, print] := .level rfl (.cons hprint .nil)
  have h : Rearranged nodes nodes' := .level rfl (.cons (.scope hhover) .nil)
  obtain ⟨hcss, -, -, hunresolved⟩ := renderAfter_rearranged h .empty (.top ".card") .none
  exact ⟨h, hcss, hunresolved, by decide +kernel⟩

end Css

end StyleTree
