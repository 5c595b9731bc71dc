import StyleTree.Compile
import StyleTree.Proofs.Css.Writing

/-!
# Scoping of compiled rules

A style tree is compiled for one class, and most of its rules are confined to elements of that
class. Which rules are not is decided by the kinds of the scopes around them alone: a run of
descendant scopes drops the class, an ampersand right behind the run takes it up again, and an
at-rule there gives it up for good.

Two selectors are carried along every path, and each kind of scope swaps them differently. What
survives every swap is that both of them start with one text; the class is such a text, and so is
the blank with which a lost selector starts.

## Main definitions

* `Css.Place`, `Css.places` — the scopes among some nodes with the way to each of them
* `Selectors.along` — the selectors at the end of a path
* `Css.KeepsClass` — the paths on which rules are confined to the class

## Main results

* `rules_blocks` — every rule belongs to the scope that holds its declarations
* `Selectors.Under.along` — a text with which both selectors start is never lost
* `compileRule_startsWith_iff` — which compiled rules start with the class
-/

namespace StyleTree

/-! ### Rules and the scopes that hold them -/

namespace Css

/-- A scope with the way to it, a kind and a selector for each step from the top. -/
structure Place where
  path : List (ScopeKind × String)
  nodes : List Node

/-- The same scope seen from outside a scope around everything. -/
def Place.below (kind : ScopeKind) (selector : String) (p : Place) : Place :=
  ⟨(kind, selector) :: p.path, p.nodes⟩

/-- The kinds of the scopes on the way. -/
def Place.kinds (p : Place) : List ScopeKind :=
  p.path.map Prod.fst

end Css

mutual

/-- The scope that a node opens and those inside it. -/
def Node.places : Node → List Css.Place
  | .declaration _ _ => []
  | .scope kind selector children =>
    (⟨[], children⟩ :: Node.nestedPlaces children).map (Css.Place.below kind selector)

/-- The scopes that the nodes open and those inside them, in order. -/
def Node.nestedPlaces : List Node → List Css.Place
  | [] => []
  | node :: rest => node.places ++ Node.nestedPlaces rest

end

mutual

/-- The rules in a block, each with its selector and its declarations. -/
def Css.Block.rules : Css.Block → List (String × List Css.Declaration)
  | .rule selector ds => [(selector, ds)]
  | .atRule _ blocks => Css.rules blocks

/-- The rules in a list of blocks, at any depth. -/
def Css.rules : List Css.Block → List (String × List Css.Declaration)
  | [] => []
  | b :: rest => b.rules ++ Css.rules rest

end

/-- The selectors at the end of a path. -/
def Selectors.along (s : Selectors) (path : List (ScopeKind × String)) : Selectors :=
  path.foldl (fun s step => s.enter step.1 step.2) s

namespace Css

variable {ctx : Context} {selectors : Selectors} {nodes : List Node}

/-- All scopes: the nodes themselves and the scopes among them. -/
def places (nodes : List Node) : List Place :=
  ⟨[], nodes⟩ :: Node.nestedPlaces nodes

/-- The rule of a scope, if any declarations stand directly in it. -/
def Place.rules (ctx : Context) (selectors : Selectors) (p : Place) :
    List (String × List Declaration) :=
  if declarations ctx p.nodes = [] then []
  else [((selectors.along p.path).rule, declarations ctx p.nodes)]

theorem Place.eq_of_mem_rules {p : Place} {rule : String × List Declaration}
    (h : rule ∈ p.rules ctx selectors) :
    rule = ((selectors.along p.path).rule, declarations ctx p.nodes) := by
  unfold Place.rules at h
  split at h
  · simp at h
  · simpa using h

theorem rules_append (bs cs : List Block) : rules (bs ++ cs) = rules bs ++ rules cs := by
  induction bs with
  | nil => simp [rules]
  | cons b bs ih => simp [rules, ih]

theorem rules_ownRule :
    rules (ownRule ctx selectors nodes) = Place.rules ctx selectors ⟨[], nodes⟩ := by
  unfold ownRule Place.rules
  cases declarations ctx nodes <;> simp [rules, Block.rules, Selectors.along]

/-- From outside, the selectors of a place are those that its path makes of the outer ones. -/
theorem rules_below (kind : ScopeKind) (selector : String) (p : Place) :
    (p.below kind selector).rules ctx selectors = p.rules ctx (selectors.enter kind selector) :=
  rfl

theorem rules_nestedBlocks (nodes : List Node) (selectors : Selectors) :
    rules (Node.nestedBlocks ctx selectors nodes) =
      (Node.nestedPlaces nodes).flatMap (Place.rules ctx selectors) := by
  induction nodes using Node.induction generalizing selectors with
  | nil => rfl
  | declaration property v rest ih =>
    simpa [Node.nestedBlocks, Node.nestedPlaces, Node.blocks, Node.places] using ih selectors
  | scope kind selector children rest ihchildren ih =>
    -- Whether an at-rule stands around the blocks inside makes no difference to their rules.
    have hblocks : rules ((Node.scope kind selector children).blocks ctx selectors) =
        rules (ownRule ctx (selectors.enter kind selector) children ++
          Node.nestedBlocks ctx (selectors.enter kind selector) children) := by
      cases kind <;> simp [Node.blocks, rules, Block.rules]
    rw [Node.nestedBlocks, rules_append, hblocks, rules_append, rules_ownRule, ihchildren, ih,
      Node.nestedPlaces, Node.places, List.flatMap_append, List.map_cons, List.flatMap_cons,
      List.flatMap_map]
    simp only [rules_below]

/-- Every rule belongs to the scope that holds its declarations, and stands in its order. -/
theorem rules_blocks :
    rules (blocks ctx selectors nodes) =
      (places nodes).flatMap (Place.rules ctx selectors) := by
  rw [blocks, rules_append, rules_ownRule, rules_nestedBlocks, places, List.flatMap_cons]

end Css

/-! ### Selectors along a path -/

/-- Both selectors start with the text. -/
structure Selectors.Under (start : String) (s : Selectors) : Prop where
  current : start.toList <+: s.current.toList
  topLevel : start.toList <+: s.topLevel.toList

namespace Selectors

variable {start : String} {s : Selectors}

theorem Under.base (h : s.Under start) : start.toList <+: s.base.toList := by
  unfold Selectors.base
  split
  · exact h.current
  · exact h.topLevel

theorem Under.rule (h : s.Under start) : start.toList <+: s.rule.toList := by
  unfold Selectors.rule
  split
  · exact h.topLevel
  · exact h.current

theorem under_enter_ampersand (h : start.toList <+: s.base.toList) (selector : String) :
    (s.enter .ampersand selector).Under start := by
  refine ⟨?_, h⟩
  rw [Selectors.enter, String.toList_append]
  exact h.trans (List.prefix_append _ _)

theorem under_enter_atRule (h : start.toList <+: s.rule.toList) (selector : String) :
    (s.enter .atRule selector).Under start :=
  ⟨h, h⟩

theorem isPrefix_current_enter_descendant (h : start.toList <+: s.current.toList)
    (selector : String) : start.toList <+: (s.enter .descendant selector).current.toList := by
  rw [Selectors.enter, String.toList_append, String.toList_append, List.append_assoc]
  exact h.trans (List.prefix_append _ _)

/-- No kind of scope loses a text with which both selectors start. -/
theorem Under.enter (h : s.Under start) (kind : ScopeKind) (selector : String) :
    (s.enter kind selector).Under start := by
  cases kind with
  | ampersand => exact under_enter_ampersand h.base selector
  | atRule => exact under_enter_atRule h.rule selector
  | descendant => exact ⟨isPrefix_current_enter_descendant h.current selector, h.base⟩

/-- No path loses a text with which both selectors start. -/
theorem Under.along (h : s.Under start) (path : List (ScopeKind × String)) :
    (s.along path).Under start := by
  induction path generalizing s with
  | nil => exact h
  | cons step path ih => exact ih (h.enter step.1 step.2)

end Selectors

/-! ### Paths that keep the class -/

namespace Css

/-- Rules are confined to the class at the top, behind a first step through an ampersand or an
at-rule, and behind a run of descendants that an ampersand follows. -/
def KeepsClass (kinds : List ScopeKind) : Prop :=
  kinds = [] ∨ kinds.head? = some .ampersand ∨ kinds.head? = some .atRule ∨
    (kinds.dropWhile (· = .descendant)).head? = some .ampersand

/-- Behind a first step through an ampersand or an at-rule every path keeps the class. -/
theorem keepsClass_of_isPrefix {outer inner : List ScopeKind} (h : outer <+: inner)
    (hfirst : outer.head? = some .ampersand ∨ outer.head? = some .atRule) : KeepsClass inner := by
  obtain ⟨rest, rfl⟩ := h
  rcases hfirst with hfirst | hfirst
  · exact .inr (.inl (by rw [List.head?_append, hfirst, Option.some_or]))
  · exact .inr (.inr (.inl (by rw [List.head?_append, hfirst, Option.some_or])))

/-- What a path makes of the class: either the rule at its end starts with it, or with a blank. -/
def StartsAs (start : String) (kept : Prop) (rule : String) : Prop :=
  (kept → start.toList <+: rule.toList) ∧ (¬ kept → " ".toList <+: rule.toList)

theorem startsAs_of_under {start : String} {s : Selectors} {kept : Prop} (hkept : kept)
    (h : s.Under start) : StartsAs start kept s.rule :=
  ⟨fun _ => h.rule, fun hlost => absurd hkept hlost⟩

theorem startsAs_of_under_blank {start : String} {s : Selectors} {kept : Prop} (hlost : ¬ kept)
    (h : s.Under " ") : StartsAs start kept s.rule :=
  ⟨fun hkept => absurd hkept hlost, fun _ => h.rule⟩

/-- Behind a run of descendants the class only waits at the top level. -/
theorem startsAs_along_of_blank {start : String} (hstart : start ≠ "")
    (path : List (ScopeKind × String)) {s : Selectors} (hcurrent : " ".toList <+: s.current.toList)
    (htop : s.topLevel = start) :
    StartsAs start (((path.map Prod.fst).dropWhile (· = .descendant)).head? = some .ampersand)
      (s.along path).rule := by
  induction path generalizing s with
  | nil =>
    have hne : s.current ≠ "" := fun h => by simp [h] at hcurrent
    refine ⟨by simp, fun _ => ?_⟩
    rwa [Selectors.along, List.foldl_nil, Selectors.rule, if_neg hne]
  | cons step path ih =>
    obtain ⟨kind, selector⟩ := step
    have hbase : s.base = start := by rw [Selectors.base, htop, if_neg hstart]
    cases kind with
    | descendant => exact ih (Selectors.isPrefix_current_enter_descendant hcurrent selector) hbase
    | ampersand =>
      -- The class is taken up again, and from here on both selectors start with it.
      have hinner : (s.enter .ampersand selector).Under start :=
        Selectors.under_enter_ampersand (by simp [hbase]) selector
      exact startsAs_of_under rfl (hinner.along path)
    | atRule =>
      -- The class is given up, and from here on both selectors start with a blank.
      have hne : s.current ≠ "" := fun h => by simp [h] at hcurrent
      have hrule : s.rule = s.current := by rw [Selectors.rule, if_neg hne]
      have hinner : (s.enter .atRule selector).Under " " :=
        Selectors.under_enter_atRule (hrule ▸ hcurrent) selector
      exact startsAs_of_under_blank (by simp) (hinner.along path)

/-- From the top, every path either keeps the class or loses it to a blank. -/
theorem startsAs_along_top {start : String} (hstart : start ≠ "")
    (path : List (ScopeKind × String)) :
    StartsAs start (KeepsClass (path.map Prod.fst)) ((Selectors.top start).along path).rule := by
  have hbase : (Selectors.top start).base = start := by
    rw [Selectors.base, Selectors.top, if_neg hstart]
  have hrule : (Selectors.top start).rule = start := if_pos rfl
  cases path with
  | nil =>
    have hend : ((Selectors.top start).along []).rule = start := hrule
    exact ⟨fun _ => by simp [hend], fun h => absurd (Or.inl rfl) h⟩
  | cons step path =>
    obtain ⟨kind, selector⟩ := step
    cases kind with
    | ampersand =>
      have hinner : ((Selectors.top start).enter .ampersand selector).Under start :=
        Selectors.under_enter_ampersand (by simp [hbase]) selector
      exact startsAs_of_under (.inr (.inl rfl)) (hinner.along path)
    | atRule =>
      have hinner : ((Selectors.top start).enter .atRule selector).Under start :=
        Selectors.under_enter_atRule (by simp [hrule]) selector
      exact startsAs_of_under (.inr (.inr (.inl rfl))) (hinner.along path)
    | descendant =>
      -- The current selector is empty at the top, so a descendant starts with a blank.
      have hinner :
          " ".toList <+: ((Selectors.top start).enter .descendant selector).current.toList := by
        simp [Selectors.enter, Selectors.top]
      have hwaiting := startsAs_along_of_blank hstart path hinner hbase
      simpa [KeepsClass, Selectors.along] using hwaiting

theorem StartsAs.isPrefix_iff {className rule : String} {kept : Prop}
    (h : StartsAs (classSelector className) kept rule) :
    (classSelector className).toList <+: rule.toList ↔ kept := by
  refine ⟨fun hclass => Classical.byContradiction fun hlost => ?_, h.1⟩
  -- A selector cannot start with the dot of the class and with a blank.
  obtain ⟨rest, hdot⟩ := hclass
  obtain ⟨rest', hblank⟩ := h.2 hlost
  rw [← hblank] at hdot
  simp [classSelector] at hdot

end Css

open Css in
/-- The rules of a compiled style tree are those of the scopes that hold declarations, in order. A
rule starts with the class exactly if the kinds of the scopes around it keep the class, and else it
starts with a blank. So behind a first step through an ampersand or an at-rule every rule, however
deep, starts with the class. -/
theorem compileRule_startsWith_iff (className : String) (es : Sheet) (ctx : Context) :
    let nodes := Node.ofSheet ctx.keyAliases (ctx.expand es)
    let top := Selectors.top (classSelector className)
    compileRule className es ctx = text (blocks ctx top nodes) ∧
      rules (blocks ctx top nodes) = (places nodes).flatMap (Place.rules ctx top) ∧
      (∀ place ∈ places nodes, ∀ rule ∈ place.rules ctx top,
        ((classSelector className).toList <+: rule.1.toList ↔ KeepsClass place.kinds) ∧
          (¬ KeepsClass place.kinds → " ".toList <+: rule.1.toList)) ∧
      ∀ outer ∈ places nodes, ∀ inner ∈ places nodes, outer.path <+: inner.path →
        outer.kinds.head? = some .ampersand ∨ outer.kinds.head? = some .atRule →
        ∀ rule ∈ inner.rules ctx top, (classSelector className).toList <+: rule.1.toList := by
  intro nodes top
  have hclass : classSelector className ≠ "" := by simp [classSelector]
  have hstarts : ∀ place : Place, ∀ rule ∈ place.rules ctx top,
      StartsAs (classSelector className) (KeepsClass place.kinds) rule.1 := by
    intro place rule hrule
    rw [Place.eq_of_mem_rules hrule]
    exact startsAs_along_top hclass place.path
  refine ⟨?_, rules_blocks, fun place _ rule hrule => ?_, ?_⟩
  · rw [compileRule, renderSheet, render_eq]
  · exact ⟨(hstarts place rule hrule).isPrefix_iff, (hstarts place rule hrule).2⟩
  · intro outer _ inner _ hpath hfirst rule hrule
    have hkinds : outer.kinds <+: inner.kinds := hpath.map Prod.fst
    exact (hstarts inner rule hrule).1 (keepsClass_of_isPrefix hkinds hfirst)

open Css in
/-- Behind a descendant an at-rule leads out of the class; behind an ampersand a descendant stays in
it. -/
theorem compileRule_startsWith_span :
    let es : Sheet :=
      [("span", .scope [("@media print", .scope [("color", .scalar (.text "red"))])]),
        ("&:hover", .scope [("em", .scope [("color", .scalar (.text "blue"))])])]
    let nodes := Node.ofSheet Context.standard.keyAliases (Context.standard.expand es)
    let lost : Place := ⟨[(.descendant, "span"), (.atRule, "@media print")],
      [.declaration "color" (.text "red")]⟩
    let kept : Place := ⟨[(.ampersand, ":hover"), (.descendant, "em")],
      [.declaration "color" (.text "blue")]⟩
    let hover : Place := ⟨[(.ampersand, ":hover")], [.scope .descendant "em" kept.nodes]⟩
    lost ∈ places nodes ∧ kept ∈ places nodes ∧ hover ∈ places nodes ∧
      ((classSelector "card").toList <+: " span".toList ↔ KeepsClass lost.kinds) ∧
      (¬ KeepsClass lost.kinds → " ".toList <+: " span".toList) ∧
      hover.path <+: kept.path ∧ hover.kinds.head? = some .ampersand ∧
      (classSelector "card").toList <+: ".card:hover em".toList := by
  intro es nodes lost kept hover
  have hplaces : places nodes = [⟨[], nodes⟩, ⟨[(.descendant, "span")], _⟩, lost, hover, kept] :=
    rfl
  have hlost : lost ∈ places nodes := by simp [hplaces]
  have hkept : kept ∈ places nodes := by simp [hplaces]
  have hhover : hover ∈ places nodes := by simp [hplaces]
  have hpath : hover.path <+: kept.path := ⟨[(.descendant, "em")], rfl⟩
  have hlostRule : (" span", [⟨"color", "red"⟩]) ∈
      lost.rules .standard (.top (classSelector "card")) := List.mem_singleton.mpr rfl
  have hkeptRule : (".card:hover em", [⟨"color", "blue"⟩]) ∈
      kept.rules .standard (.top (classSelector "card")) := List.mem_singleton.mpr rfl
  obtain ⟨-, -, hrules, hdeeper⟩ := compileRule_startsWith_iff "card" es .standard
  obtain ⟨hclass, hblank⟩ := hrules lost hlost _ hlostRule
  exact ⟨hlost, hkept, hhover, hclass, hblank, hpath, rfl,
    hdeeper hover hhover kept hkept hpath (.inl rfl) _ hkeptRule⟩

end StyleTree
