import Mathlib.Data.List.Nodup
import StyleTree.Proofs.Css.Faithful
import StyleTree.Proofs.Css.Headers
import StyleTree.Proofs.Css.Scoping
import StyleTree.Proofs.Style.Reading
import StyleTree.Proofs.Text.Hyphenated

/-!
# The properties of a rule

A style tree has each key once in a scope, but a rule shows hyphenated properties, and two keys can
have one hyphenated form. They cannot if no key has hyphens of its own. So with keys in camel case
no rule declares a property twice; its properties are those of the scalar entries of one scope, in
their order.

## Main definitions

* `Sheet.scopes` — the trees at all levels of a style tree
* `Sheet.scalarKeys` — the keys of the scalar entries at the top of a tree
* `Sheet.CamelCase` — no scalar key at any level has hyphens or starts with a blank

## Main results

* `properties_rules_sheetBlocks` — the properties of all rules
* `nodup_properties_renderSheet` — no rule declares a property twice
-/

namespace StyleTree

open Text (StartsClear hyphenate)

/-! ### The scopes of a style tree -/

mutual

/-- The tree below a value and the trees inside it. -/
def Style.scopes : Style → List Sheet
  | .scalar _ => []
  | .scope es => es :: Sheet.nestedScopes es

/-- The trees inside a style tree, in order. -/
def Sheet.nestedScopes : List (String × Style) → List Sheet
  | [] => []
  | (_, s) :: rest => s.scopes ++ Sheet.nestedScopes rest

end

namespace Sheet

/-- The trees at all levels of a style tree: the tree itself and those inside. -/
def scopes (es : Sheet) : List Sheet :=
  es :: nestedScopes es

/-- The keys of the scalar entries of a tree, in order. -/
def scalarKeys (es : Sheet) : List String :=
  es.filterMap fun
    | (key, .scalar _) => some key
    | (_, .scope _) => none

/-- No scalar key at any level has hyphens of its own or starts with a blank. -/
def CamelCase (es : Sheet) : Prop :=
  ∀ scope ∈ es.scopes, ∀ key ∈ scope.scalarKeys, '-' ∉ key.toList ∧ StartsClear key

instance (es : Sheet) : Decidable es.CamelCase :=
  inferInstanceAs (Decidable
    (∀ scope ∈ es.scopes, ∀ key ∈ scope.scalarKeys, '-' ∉ key.toList ∧ StartsClear key))

theorem scalarKeys_sublist (es : Sheet) : es.scalarKeys.Sublist (Entries.keys es) := by
  induction es with
  | nil => exact .slnil
  | cons e rest ih =>
    obtain ⟨key, s⟩ := e
    cases s with
    | scalar v => exact ih.cons_cons key
    | scope inner => exact ih.cons key

theorem mem_nestedScopes_iff {es scope : Sheet} :
    scope ∈ nestedScopes es ↔ ∃ e ∈ es, scope ∈ e.2.scopes := by
  induction es with
  | nil => simp [nestedScopes]
  | cons e rest ih => simp [nestedScopes, ih]

/-- The keys are distinct at every level. -/
theorem nodup_keys_of_mem_scopes {es scope : Sheet} (hes : DistinctKeys es)
    (h : scope ∈ es.scopes) : (Entries.keys scope).Nodup := by
  induction es using Sheet.induction_scopes with
  | step es ih =>
    rcases List.mem_cons.mp h with rfl | h
    · exact hes.nodup
    · obtain ⟨⟨key, s⟩, he, hscope⟩ := mem_nestedScopes_iff.mp h
      have hs := (distinctKeys_iff.mp hes).2 _ he
      cases s with
      | scalar v => exact absurd hscope List.not_mem_nil
      | scope inner => exact ih key inner he hs hscope

end Sheet

namespace Css

variable {ctx : Context} {selectors : Selectors} {keys : KeyAliases}

/-! ### From scopes to rules -/

/-- The declarations of a scope are its scalar entries, in order. -/
theorem properties_declarations (es : Sheet) :
    (declarations ctx (Node.ofSheet keys es)).map Declaration.property =
      es.scalarKeys.map hyphenate := by
  induction es using Sheet.induction with
  | nil => rfl
  | scalar key v rest ih => exact congrArg (hyphenate key :: ·) ih
  | scope key inner rest _ ih => exact ih

theorem nodes_nestedPlaces (es : Sheet) :
    (Node.nestedPlaces (Node.ofSheet keys es)).map Place.nodes =
      (Sheet.nestedScopes es).map (Node.ofSheet keys) := by
  induction es using Sheet.induction with
  | nil => rfl
  | scalar key v rest ih => exact ih
  | scope key inner rest ihinner ih =>
    -- What stands around a scope makes no difference to the nodes in it.
    have hbelow (kind : ScopeKind) (selector : String) (ps : List Place) :
        (ps.map (Place.below kind selector)).map Place.nodes = ps.map Place.nodes :=
      List.map_map
    rw [Node.ofSheet, Node.ofStyle, Node.nestedPlaces, Node.places, List.map_append, hbelow, ih,
      List.map_cons, ihinner, Sheet.nestedScopes, Style.scopes, List.map_append, List.map_cons]

/-- The scopes among the nodes of a style tree are the trees at its levels. -/
theorem nodes_places (es : Sheet) :
    (places (Node.ofSheet keys es)).map Place.nodes = es.scopes.map (Node.ofSheet keys) :=
  congrArg (Node.ofSheet keys es :: ·) (nodes_nestedPlaces es)

theorem properties_flatMap_rules (ps : List Place) :
    (ps.flatMap (Place.rules ctx selectors)).map (fun rule => rule.2.map Declaration.property) =
      (ps.map fun p => (declarations ctx p.nodes).map Declaration.property).filter (· ≠ []) := by
  induction ps with
  | nil => rfl
  | cons p ps ih =>
    rw [List.flatMap_cons, List.map_append, ih, List.map_cons, Place.rules]
    by_cases h : declarations ctx p.nodes = []
    · simp [h]
    · simp [h]

/-- Each scope with scalar entries makes one rule, with the properties of its entries in order. -/
theorem properties_rules_sheetBlocks (es : Sheet) :
    (rules (sheetBlocks ctx selectors es)).map (fun rule => rule.2.map Declaration.property) =
      (es.scopes.map fun scope => scope.scalarKeys.map hyphenate).filter (· ≠ []) := by
  have hscopes : (places (Node.ofSheet ctx.keyAliases es)).map
        (fun p => (declarations ctx p.nodes).map Declaration.property) =
      es.scopes.map fun scope => scope.scalarKeys.map hyphenate := by
    calc (places (Node.ofSheet ctx.keyAliases es)).map
          (fun p => (declarations ctx p.nodes).map Declaration.property)
        = ((places (Node.ofSheet ctx.keyAliases es)).map Place.nodes).map
            (fun nodes => (declarations ctx nodes).map Declaration.property) := by
          rw [List.map_map]; rfl
      _ = (es.scopes.map (Node.ofSheet ctx.keyAliases)).map
            (fun nodes => (declarations ctx nodes).map Declaration.property) := by
          rw [nodes_places]
      _ = es.scopes.map fun scope => scope.scalarKeys.map hyphenate := by
          rw [List.map_map]
          exact List.map_congr_left fun scope _ => properties_declarations scope
  rw [sheetBlocks, rules_blocks, properties_flatMap_rules, hscopes]

/-! ### The line of a rule -/

/-- A declaration with its semicolon. -/
def Declaration.ended (d : Declaration) : String :=
  d.property ++ ": " ++ d.value ++ ";"

theorem Declaration.toList_ended (d : Declaration) : d.ended.toList = d.chars ++ [';'] := by
  simp [Declaration.ended, Declaration.chars]

theorem cons_toList_intercalate {ds : List Declaration} (hne : ds ≠ []) :
    ' ' :: (" ".intercalate (ds.map Declaration.ended)).toList =
      ds.flatMap fun d => ' ' :: d.chars ++ [';'] := by
  induction ds with
  | nil => exact absurd rfl hne
  | cons d rest ih =>
    cases rest with
    | nil => simp [Declaration.toList_ended]
    | cons d' rest =>
      rw [List.flatMap_cons, ← ih (List.cons_ne_nil d' rest), List.map_cons, List.map_cons,
        String.intercalate_cons_cons, String.toList_append, String.toList_append,
        Declaration.toList_ended]
      simp

/-- If no property starts with a blank, the line shows the declarations with nothing cut off. -/
theorem declarationsText_eq {ds : List Declaration} (hne : ds ≠ [])
    (h : ∀ d ∈ ds, StartsClear d.property) :
    declarationsText ds = " ".intercalate (ds.map Declaration.ended) := by
  have hchars := (cons_toList_declarationsText hne h).trans (cons_toList_intercalate hne).symm
  exact String.toList_inj.mp (List.cons_inj_right ' ' |>.mp hchars)

/-- With keys in camel case no rule declares a property twice. Each rule of the style sheet has the
properties of one scope, which are the hyphenated keys of its scalar entries in their order; they
are distinct and without capitals, and the text of the rule shows them in full. Every scope with
scalar entries has a rule. What is behind this is that hyphenation can be undone on texts without
hyphens, that it is idempotent and that it works piece by piece. -/
theorem nodup_properties_renderSheet (ctx : Context) (selectors : Selectors) {es : Sheet}
    (hdistinct : Sheet.DistinctKeys es) (hcamel : es.CamelCase) :
    let blocks := sheetBlocks ctx selectors es
    (renderSheet ctx selectors es).css = text blocks ∧
      (∀ rule ∈ rules blocks,
        let properties := rule.2.map Declaration.property
        properties.Nodup ∧
          (∀ property ∈ properties, ∀ c ∈ property.toList, c.isUpper = false) ∧
          (∃ scope ∈ es.scopes, properties = scope.scalarKeys.map hyphenate) ∧
          declarationsText rule.2 = " ".intercalate (rule.2.map Declaration.ended)) ∧
      (rules blocks).map (fun rule => rule.2.map Declaration.property) =
        (es.scopes.map fun scope => scope.scalarKeys.map hyphenate).filter (· ≠ []) ∧
      (∀ s t : String, '-' ∉ s.toList → '-' ∉ t.toList → hyphenate s = hyphenate t → s = t) ∧
      (∀ s, hyphenate (hyphenate s) = hyphenate s) ∧
      ∀ s t, hyphenate (s ++ t) = hyphenate s ++ hyphenate t := by
  intro blocks
  have hall : (rules blocks).map (fun rule => rule.2.map Declaration.property) =
      (es.scopes.map fun scope => scope.scalarKeys.map hyphenate).filter (· ≠ []) :=
    properties_rules_sheetBlocks es
  refine ⟨css_renderSheet es, fun rule hrule => ?_, hall, fun s t => Text.hyphenate_inj,
    Text.hyphenate_hyphenate, Text.hyphenate_append⟩
  intro properties
  have hmem : properties ∈
      (es.scopes.map fun scope => scope.scalarKeys.map hyphenate).filter (· ≠ []) :=
    hall ▸ List.mem_map_of_mem hrule
  obtain ⟨hmap, hne⟩ := List.mem_filter.mp hmem
  obtain ⟨scope, hscope, heq⟩ := List.mem_map.mp hmap
  have heq : properties = scope.scalarKeys.map hyphenate := heq.symm
  have hkeys : scope.scalarKeys.Nodup :=
    (Sheet.nodup_keys_of_mem_scopes hdistinct hscope).sublist (Sheet.scalarKeys_sublist scope)
  refine ⟨?_, ?_, ⟨scope, hscope, heq⟩, ?_⟩
  · rw [heq]
    refine List.Nodup.map_on (fun s hs t ht => ?_) hkeys
    exact Text.hyphenate_inj (hcamel scope hscope s hs).1 (hcamel scope hscope t ht).1
  · intro property hproperty c hc
    rw [heq] at hproperty
    obtain ⟨key, -, rfl⟩ := List.mem_map.mp hproperty
    exact Text.isUpper_of_mem_hyphenate hc
  · have hds : rule.2 ≠ [] := by
      rintro hnil
      simp [properties, hnil] at hne
    refine declarationsText_eq hds fun d hd => ?_
    have hproperty : d.property ∈ properties := List.mem_map_of_mem hd
    rw [heq] at hproperty
    obtain ⟨key, hkey, hd⟩ := List.mem_map.mp hproperty
    rw [← hd]
    exact Text.startsClear_hyphenate (hcamel scope hscope key hkey).2

/-- A capital at the start of a key, and one key in two scopes. -/
theorem nodup_properties_renderSheet_hover :
    let es : Sheet :=
      [("zIndex", .scalar (.text "1")),
        ("&:hover", .scope [("WebkitBoxShadow", .scalar (.text "none")),
          ("em", .scope []), ("zIndex", .scalar (.text "2"))])]
    let hover : List Declaration := [⟨"-webkit-box-shadow", "none"⟩, ⟨"z-index", "2"⟩]
    Sheet.DistinctKeys es ∧ es.CamelCase ∧
      (".card:hover", hover) ∈ rules (sheetBlocks .standard (.top ".card") es) ∧
      (hover.map Declaration.property).Nodup ∧
      declarationsText hover = "-webkit-box-shadow: none; z-index: 2;" := by
  intro es hover
  have hdistinct : Sheet.DistinctKeys es := by
    simp [es, Sheet.DistinctKeys, Style.DistinctKeys, Entries.keys]
  have hcamel : es.CamelCase := by decide
  have hrule : (".card:hover", hover) ∈ rules (sheetBlocks .standard (.top ".card") es) := by
    decide
  obtain ⟨-, hrules, -⟩ := nodup_properties_renderSheet .standard (.top ".card") hdistinct hcamel
  obtain ⟨hnodup, -, -, hline⟩ := hrules _ hrule
  exact ⟨hdistinct, hcamel, hrule, hnodup, hline⟩

end Css

end StyleTree
