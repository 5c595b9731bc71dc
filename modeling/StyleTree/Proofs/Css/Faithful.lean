import StyleTree.Proofs.Css.Reading
import StyleTree.Proofs.Css.Writing

/-!
# Faithful rendering

The style sheet of some nodes holds exactly the blocks that the nodes stand for, and these can be
read back from its text. What is asked of the nodes is that none of their texts contains a mark of
the reader; which scopes enclose which, how many of them are empty and how declarations and scopes
alternate does not matter.

## Main definitions

* `Selectors.Legible`, `Node.Legible`, `Node.AllLegible` — no text contains a mark

## Main results

* `legible_blocks` — legible nodes stand for a legible style sheet
* `read_render` — the blocks and both counts are read back from the text
-/

namespace StyleTree

open Text (Lacks StartsClear)
open Css (selectorMarks propertyMarks valueMarks)

namespace Text

variable {marks : List Char} {s t : String}

theorem lacks_append : Lacks marks (s ++ t) ↔ Lacks marks s ∧ Lacks marks t := by
  simp only [Lacks, String.toList_append, List.mem_append, not_or]
  exact ⟨fun h => ⟨fun c hc => (h c hc).1, fun c hc => (h c hc).2⟩,
    fun h c hc => ⟨h.1 c hc, h.2 c hc⟩⟩

/-- Hyphenation adds none of the marks that no property may contain. -/
theorem lacks_hyphenate (h : Lacks propertyMarks s) : Lacks propertyMarks (hyphenate s) := by
  intro c hc hmem
  have hneutral : propertyMarks.all (fun c => c ≠ '-' && !c.isLower) := by decide
  have hmark := List.all_eq_true.mp hneutral c hc
  obtain ⟨hhyphen, hlower⟩ : c ≠ '-' ∧ c.isLower = false := by simpa using hmark
  exact h c hc (mem_of_mem_hyphenate hmem hhyphen hlower)

/-- Hyphenation puts no blank at the start of a text. -/
theorem startsClear_hyphenate (h : StartsClear s) : StartsClear (hyphenate s) := by
  rw [StartsClear, toList_hyphenate]
  intro c hc
  cases hs : s.toList with
  | nil => simp [hs] at hc
  | cons a cs =>
    rw [hs, List.flatMap_cons, hyphenateChar] at hc
    split at hc
    · obtain rfl : '-' = c := by simpa using hc
      decide
    · obtain rfl : a = c := by simpa using hc
      exact h a (by simp [hs])

end Text

/-! ### Legible nodes -/

/-- Neither selector contains a mark. -/
structure Selectors.Legible (s : Selectors) : Prop where
  current : Lacks selectorMarks s.current
  topLevel : Lacks selectorMarks s.topLevel

namespace Selectors.Legible

variable {s : Selectors} (h : s.Legible)

include h

theorem base : Lacks selectorMarks s.base := by
  unfold Selectors.base
  split
  · exact h.current
  · exact h.topLevel

theorem rule : Lacks selectorMarks s.rule := by
  unfold Selectors.rule
  split
  · exact h.topLevel
  · exact h.current

theorem enter {kind : ScopeKind} {selector : String} (hselector : Lacks selectorMarks selector) :
    (s.enter kind selector).Legible := by
  have hblank : Lacks selectorMarks " " := by decide
  cases kind with
  | ampersand => exact ⟨Text.lacks_append.mpr ⟨h.base, hselector⟩, h.base⟩
  | atRule => exact ⟨h.rule, h.rule⟩
  | descendant =>
    exact ⟨Text.lacks_append.mpr ⟨Text.lacks_append.mpr ⟨h.current, hblank⟩, hselector⟩, h.base⟩

end Selectors.Legible

mutual

/-- No text that the node writes contains a mark, and no property starts with a blank. -/
def Node.Legible (ctx : Context) : Node → Prop
  | .declaration property v =>
    Lacks propertyMarks property ∧ StartsClear property ∧
      Lacks valueMarks (Css.valueText ctx (Text.hyphenate property) v)
  | .scope _ selector children => Lacks selectorMarks selector ∧ Node.AllLegible ctx children

/-- No text that the nodes write contains a mark, and no property starts with a blank. -/
def Node.AllLegible (ctx : Context) : List Node → Prop
  | [] => True
  | node :: rest => node.Legible ctx ∧ Node.AllLegible ctx rest

end

namespace Css

variable {ctx : Context} {selectors : Selectors} {nodes : List Node}

theorem legible_declaration {property : String} {v : Scalar}
    (h : (Node.declaration property v).Legible ctx) : (declaration ctx property v).Legible := by
  obtain ⟨hproperty, hstart, hvalue⟩ := h
  exact ⟨Text.lacks_hyphenate hproperty, Text.startsClear_hyphenate hstart, hvalue⟩

theorem legible_declarations (h : Node.AllLegible ctx nodes) :
    ∀ d ∈ declarations ctx nodes, d.Legible := by
  induction nodes with
  | nil => simp [declarations]
  | cons node rest ih =>
    obtain ⟨hnode, hrest⟩ := h
    intro d hd
    cases node with
    | declaration property v =>
      rw [declarations, List.filterMap_cons] at hd
      rcases List.mem_cons.mp hd with rfl | hd
      · exact legible_declaration hnode
      · exact ih hrest d hd
    | scope kind selector children => exact ih hrest d (by simpa [declarations] using hd)

theorem legible_ownRule (hs : selectors.Legible) (h : Node.AllLegible ctx nodes) :
    Legible (ownRule ctx selectors nodes) := by
  have hds := legible_declarations h
  unfold ownRule
  cases hcase : declarations ctx nodes with
  | nil => trivial
  | cons d ds =>
    rw [hcase] at hds
    exact ⟨⟨hs.rule, List.cons_ne_nil d ds, hds⟩, trivial⟩

theorem legible_nestedBlocks (nodes : List Node) (selectors : Selectors) (hs : selectors.Legible)
    (h : Node.AllLegible ctx nodes) : Legible (Node.nestedBlocks ctx selectors nodes) := by
  -- What has to stay legible on the way down are the selectors, which are made longer by scopes.
  induction nodes using Node.induction generalizing selectors with
  | nil => trivial
  | declaration property v rest ih => exact ih selectors hs h.2
  | scope kind selector children rest ihchildren ih =>
    obtain ⟨⟨hselector, hchildren⟩, hrest⟩ := h
    have hinner : (selectors.enter kind selector).Legible := hs.enter hselector
    have hblocks : Legible (ownRule ctx (selectors.enter kind selector) children ++
        Node.nestedBlocks ctx (selectors.enter kind selector) children) :=
      legible_append.mpr ⟨legible_ownRule hinner hchildren, ihchildren _ hinner hchildren⟩
    rw [Node.nestedBlocks, legible_append]
    refine ⟨?_, ih selectors hs hrest⟩
    -- Only an at-rule writes its own text; of other scopes it is written as part of selectors.
    cases kind with
    | atRule => exact ⟨⟨hselector, hblocks⟩, trivial⟩
    | ampersand | descendant => exact hblocks

/-- Legible nodes stand for a legible style sheet. -/
theorem legible_blocks (hs : selectors.Legible) (h : Node.AllLegible ctx nodes) :
    Legible (blocks ctx selectors nodes) :=
  legible_append.mpr ⟨legible_ownRule hs h, legible_nestedBlocks nodes selectors hs h⟩

/-- One reader finds in the text of any legible nodes the blocks that they stand for, and the
writer's counts are those of the blocks that it finds. So nodes with one text stand for the same
blocks. -/
theorem read_render (hs : selectors.Legible) (h : Node.AllLegible ctx nodes) :
    read (render ctx selectors nodes).css = some (blocks ctx selectors nodes) ∧
      (render ctx selectors nodes).tally.rules = ruleCount (blocks ctx selectors nodes) ∧
      (render ctx selectors nodes).tally.declarations =
        declarationCount (blocks ctx selectors nodes) ∧
      ∀ (ctx' : Context) (selectors' : Selectors) (nodes' : List Node), selectors'.Legible →
        Node.AllLegible ctx' nodes' →
        (render ctx' selectors' nodes').css = (render ctx selectors nodes).css →
        blocks ctx' selectors' nodes' = blocks ctx selectors nodes := by
  have hread : read (text (blocks ctx selectors nodes)) = some (blocks ctx selectors nodes) :=
    read_text (legible_blocks hs h)
  simp only [render_eq]
  refine ⟨hread, rfl, rfl, fun ctx' selectors' nodes' hs' h' hcss => ?_⟩
  exact (text_eq_iff (legible_blocks hs' h') (legible_blocks hs h)).mp hcss

/-- An at-rule without blocks, a rule hoisted before it and an ampersand behind it. -/
theorem read_render_card :
    let selectors := Selectors.top ".card"
    let nodes : List Node :=
      [.scope .atRule "@media print" [.scope .descendant "em" []],
        .declaration "fontSize" (.text "$small"),
        .scope .ampersand ":hover" [.declaration "color" (.text "red")]]
    selectors.Legible ∧ Node.AllLegible .standard nodes ∧
      read (render .standard selectors nodes).css =
        some [.rule ".card" [⟨"font-size", "undefined"⟩], .atRule "@media print" [],
          .rule ".card:hover" [⟨"color", "red"⟩]] := by
  intro selectors nodes
  have hs : selectors.Legible := ⟨by decide, by decide⟩
  have h : Node.AllLegible .standard nodes :=
    ⟨⟨by decide, ⟨by decide, trivial⟩, trivial⟩, ⟨by decide, by decide, by decide⟩,
      ⟨by decide, ⟨by decide, by decide, by decide⟩, trivial⟩, trivial⟩
  exact ⟨hs, h, (read_render hs h).1.trans (by rfl)⟩

end Css

end StyleTree
