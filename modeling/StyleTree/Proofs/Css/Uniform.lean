import StyleTree.Compile
import StyleTree.Proofs.Css.Writing

/-!
# The selector at the top as a parameter

A style tree is written for a selector, and the text only passes that selector on: it stands in some
places of the text, which do not depend on it, and nothing else depends on it. The writer does ask
whether a selector is empty, in every scope, so the proof follows two facts about the selectors in
effect along with their texts. The top-level one is never empty below a selector that is not empty,
and whether the current one is empty is decided by the scopes around, not by the selector at the
top.

## Main definitions

* `Template`, `Template.fill` — a text with holes, and the text with something in every hole
* `Uniform` — a text that is made from a selector by filling a template
* `Selectors.Uniform` — selectors in effect that depend on the one at the top in this way

## Main results

* `Selectors.Uniform.enter` — what a scope makes of uniform selectors is uniform
* `Css.report_eq_report` — nothing that is reported depends on the selectors
* `Css.render_top_eq_fill` — a text for all selectors, and one for all classes
-/

namespace StyleTree

/-! ### Templates -/

/-- A part of a template. -/
inductive Piece where
  /-- A text that stands as it is. -/
  | literal (s : String)
  /-- A place to be filled. -/
  | hole
  deriving DecidableEq

/-- The text of a part with `filling` in a hole. -/
def Piece.fill (filling : String) : Piece → String
  | .literal s => s
  | .hole => filling

/-- A text with holes. -/
abbrev Template := List Piece

/-- The text with `filling` in every hole. -/
def Template.fill (t : Template) (filling : String) : String :=
  String.join (t.map (Piece.fill filling))

/-- A text that is made from a selector, which is not empty, by filling a template. -/
def Uniform (f : String → String) : Prop :=
  ∃ t : Template, ∀ selector, selector ≠ "" → f selector = t.fill selector

theorem Template.fill_append (t u : Template) (filling : String) :
    Template.fill (t ++ u) filling = t.fill filling ++ u.fill filling := by
  simp [Template.fill]

namespace Uniform

variable {f g : String → String}

theorem const (s : String) : Uniform fun _ => s :=
  ⟨[.literal s], fun selector _ => by simp [Template.fill, Piece.fill]⟩

theorem hole : Uniform fun selector => selector :=
  ⟨[.hole], fun selector _ => by simp [Template.fill, Piece.fill]⟩

theorem append (hf : Uniform f) (hg : Uniform g) :
    Uniform fun selector => f selector ++ g selector := by
  obtain ⟨t, ht⟩ := hf
  obtain ⟨u, hu⟩ := hg
  refine ⟨t ++ u, fun selector h => ?_⟩
  dsimp only
  rw [ht selector h, hu selector h, Template.fill_append]

theorem congr (hg : Uniform g) (h : ∀ selector, selector ≠ "" → f selector = g selector) :
    Uniform f := by
  obtain ⟨t, ht⟩ := hg
  exact ⟨t, fun selector hne => (h selector hne).trans (ht selector hne)⟩

end Uniform

/-! ### Selectors in effect -/

/-- Selectors in effect that are made from the selector at the top. The writer asks whether one of
them is empty, and the answer is the same for every selector at the top. -/
structure Selectors.Uniform (s : String → Selectors) : Prop where
  current : StyleTree.Uniform fun selector => (s selector).current
  topLevel : StyleTree.Uniform fun selector => (s selector).topLevel
  topLevel_ne : ∀ selector, selector ≠ "" → (s selector).topLevel ≠ ""
  current_decided : (∀ selector, selector ≠ "" → (s selector).current = "") ∨
    ∀ selector, selector ≠ "" → (s selector).current ≠ ""

namespace Selectors.Uniform

variable {s : String → Selectors}

theorem top : Selectors.Uniform Selectors.top where
  current := .const ""
  topLevel := .hole
  topLevel_ne := fun _ h => h
  current_decided := .inl fun _ _ => rfl

theorem base_eq (h : Selectors.Uniform s) {selector : String} (hne : selector ≠ "") :
    (s selector).base = (s selector).topLevel := by
  rw [Selectors.base, if_neg (h.topLevel_ne selector hne)]

theorem base (h : Selectors.Uniform s) : StyleTree.Uniform fun selector => (s selector).base :=
  h.topLevel.congr fun _ hne => h.base_eq hne

theorem rule (h : Selectors.Uniform s) : StyleTree.Uniform fun selector => (s selector).rule := by
  rcases h.current_decided with hempty | hnonempty
  · refine h.topLevel.congr fun selector hne => ?_
    rw [Selectors.rule, if_pos (hempty selector hne)]
  · refine h.current.congr fun selector hne => ?_
    rw [Selectors.rule, if_neg (hnonempty selector hne)]

/-- The selector of a rule is never empty: the top-level one stands in for an empty current one. -/
theorem rule_ne (h : Selectors.Uniform s) {selector : String} (hne : selector ≠ "") :
    (s selector).rule ≠ "" := by
  unfold Selectors.rule
  by_cases hcurrent : (s selector).current = ""
  · rw [if_pos hcurrent]
    exact h.topLevel_ne selector hne
  · rwa [if_neg hcurrent]

/-- What a scope makes of uniform selectors is uniform. Behind each kind of scope the current
selector is not empty: an ampersand and an at-rule have a selector to start from, and a descendant
starts with a blank. -/
theorem enter (h : Selectors.Uniform s) (kind : ScopeKind) (selector : String) :
    Selectors.Uniform fun top => (s top).enter kind selector := by
  have hbase : ∀ top, top ≠ "" → (s top).base ≠ "" := by
    intro top hne
    rw [h.base_eq hne]
    exact h.topLevel_ne top hne
  cases kind with
  | ampersand =>
    refine ⟨h.base.append (.const selector), h.base, hbase, .inr fun top hne hempty => ?_⟩
    exact hbase top hne (String.append_eq_empty_iff.mp hempty).1
  | atRule =>
    have hrule : ∀ top, top ≠ "" → (s top).rule ≠ "" := fun _ hne => h.rule_ne hne
    exact ⟨h.rule, h.rule, hrule, .inr hrule⟩
  | descendant =>
    refine ⟨(h.current.append (.const " ")).append (.const selector), h.base, hbase,
      .inr fun top _ hempty => ?_⟩
    -- The blank before the selector of the descendant is always there.
    have hblank := (String.append_eq_empty_iff.mp (String.append_eq_empty_iff.mp hempty).1).2
    exact absurd hblank (by decide)

end Selectors.Uniform

namespace Css

/-! ### The text -/

theorem uniform_text_ownRule (ctx : Context) {s : String → Selectors} (h : Selectors.Uniform s)
    (nodes : List Node) :
    Uniform fun top => text (ownRule ctx (s top) nodes) := by
  unfold ownRule
  cases declarations ctx nodes with
  | nil => exact .const ""
  | cons d ds =>
    have htail := Uniform.const (" \x7b " ++ declarationsText (d :: ds) ++ " \x7d\n")
    refine (h.rule.append htail).congr fun top _ => ?_
    simp [text, Block.text, String.append_assoc]

theorem uniform_text_nestedBlocks (ctx : Context) (nodes : List Node) :
    ∀ {s : String → Selectors}, Selectors.Uniform s →
      Uniform fun top => text (Node.nestedBlocks ctx (s top) nodes) := by
  induction nodes using Node.induction with
  | nil => exact fun _ => .const ""
  | declaration property v rest ih =>
    intro s h
    refine (ih h).congr fun top _ => ?_
    simp [Node.nestedBlocks, Node.blocks]
  | scope kind selector children rest ihchildren ih =>
    intro s h
    -- The scope is written under the selectors that it makes, what follows it under the outer ones.
    have hinner := h.enter kind selector
    have hscope := (uniform_text_ownRule ctx hinner children).append (ihchildren hinner)
    cases kind with
    | atRule =>
      have hheader := Uniform.const (selector ++ " \x7b\n")
      refine (((hheader.append hscope).append (.const "\x7d\n")).append (ih h)).congr
        fun top _ => ?_
      simp [Node.nestedBlocks, Node.blocks, text, Block.text, text_append, String.append_assoc]
    | ampersand | descendant =>
      refine (hscope.append (ih h)).congr fun top _ => ?_
      simp [Node.nestedBlocks, Node.blocks, text_append, String.append_assoc]

/-! ### The report -/

/-- Neither the number of rules nor that of declarations depends on the selectors. -/
theorem counts_nestedBlocks_eq (ctx : Context) (nodes : List Node) :
    ∀ s s' : Selectors,
      ruleCount (Node.nestedBlocks ctx s nodes) = ruleCount (Node.nestedBlocks ctx s' nodes) ∧
      declarationCount (Node.nestedBlocks ctx s nodes) =
        declarationCount (Node.nestedBlocks ctx s' nodes) := by
  induction nodes using Node.induction with
  | nil => exact fun _ _ => ⟨rfl, rfl⟩
  | declaration property v rest ih =>
    intro s s'
    simpa [Node.nestedBlocks, Node.blocks] using ih s s'
  | scope kind selector children rest ihchildren ih =>
    intro s s'
    obtain ⟨hrules, hdeclarations⟩ := ihchildren (s.enter kind selector) (s'.enter kind selector)
    obtain ⟨hrules', hdeclarations'⟩ := ih s s'
    -- An at-rule puts one more block around the others, and counts as none of them.
    cases kind <;>
      simp [Node.nestedBlocks, Node.blocks, ruleCount, Block.ruleCount, ruleCount_append,
        ruleCount_ownRule, declarationCount, Block.declarationCount, declarationCount_append,
        declarationCount_ownRule, hrules, hdeclarations, hrules', hdeclarations']

/-- Nothing that is reported depends on the selectors. -/
theorem report_eq_report (ctx : Context) (s s' : Selectors) (nodes : List Node) :
    report ctx s nodes = report ctx s' nodes := by
  obtain ⟨hrules, hdeclarations⟩ := counts_nestedBlocks_eq ctx nodes s s'
  simp only [report, blocks, ruleCount_append, declarationCount_append, ruleCount_ownRule,
    declarationCount_ownRule, hrules, hdeclarations]

/-! ### All selectors at once -/

theorem exists_template (ctx : Context) (nodes : List Node) :
    ∃ (template : Template) (tally : Tally), ∀ selector, selector ≠ "" →
      render ctx (.top selector) nodes = ⟨template.fill selector, tally⟩ := by
  have htext : Uniform fun top => text (blocks ctx (.top top) nodes) := by
    refine ((uniform_text_ownRule ctx .top nodes).append
      (uniform_text_nestedBlocks ctx nodes .top)).congr fun top _ => ?_
    rw [blocks, text_append]
  obtain ⟨template, htemplate⟩ := htext
  refine ⟨template, report ctx (.top "") nodes, fun selector hne => ?_⟩
  rw [render_eq, report_eq_report ctx (.top selector) (.top ""), ← htemplate selector hne]

/-- Nodes have one text for all selectors at the top that are not empty, with a hole wherever the
selector stands, and one report. So a style tree has one text for all classes: another class only
takes the place of the first one where that stands. -/
theorem render_top_eq_fill (ctx : Context) :
    (∀ nodes : List Node, ∃ (template : Template) (tally : Tally), ∀ selector, selector ≠ "" →
      render ctx (.top selector) nodes = ⟨template.fill selector, tally⟩) ∧
    ∀ es : Sheet, ∃ template : Template, ∀ className,
      compileRule className es ctx = template.fill (classSelector className) := by
  refine ⟨exists_template ctx, fun es => ?_⟩
  obtain ⟨template, tally, hrender⟩ :=
    exists_template ctx (Node.ofSheet ctx.keyAliases (ctx.expand es))
  refine ⟨template, fun className => ?_⟩
  have hclass : classSelector className ≠ "" := by simp [classSelector]
  rw [compileRule, renderSheet, hrender _ hclass]

end Css

end StyleTree
