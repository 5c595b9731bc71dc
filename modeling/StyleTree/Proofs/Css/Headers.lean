import StyleTree.Proofs.Css.Reading
import StyleTree.Proofs.Css.Writing
import StyleTree.Proofs.Style.Expansion

/-!
# Headers of at-rules

The table of key aliases is looked into twice on the way from a style tree to a style sheet:
expansion replaces the key of every scope, and the header of an at-rule is the text of the key that
expansion left. The second lookup makes a difference only where the text of one alias is again an
alias, and there it always does. So the headers are those that the author of the table expects
exactly if the table leaves the at-rule keys of the expanded tree as they are.

## Main definitions

* `ScopeKey`, `Sheet.scopeKeys` — the keys of the scopes in a tree, with the way to each
* `Sheet.atRuleKeys` — those that open an at-rule
* `Css.headers` — the headers in a style sheet, at any depth

## Main results

* `exists_of_mem_scopeKeys_expand` — every key of an expanded tree is the text of a source key
* `headers_blocks` — the headers are the texts of the at-rule keys, in order
* `sheetBlocks_eq_iff_fixes` — the second lookup changes nothing exactly if it leaves every
  at-rule key as it is
-/

namespace StyleTree

/-! ### Keys of scopes -/

/-- The key of a scope with the keys of the scopes around it, from the outside in. -/
structure ScopeKey where
  outer : List String
  key : String
  deriving DecidableEq

/-- The place that expansion gives to a scope. -/
def ScopeKey.resolve (keys : KeyAliases) (k : ScopeKey) : ScopeKey :=
  ⟨k.outer.map keys.resolve, keys.resolve k.key⟩

mutual

/-- The keys of the scope that an entry opens and of the scopes inside it. -/
def Style.scopeKeysIn (outer : List String) (key : String) : Style → List ScopeKey
  | .scalar _ => []
  | .scope es => ⟨outer, key⟩ :: Sheet.scopeKeysIn (outer ++ [key]) es

/-- The keys of all scopes in a tree, in order, where the tree stands inside the outer scopes. -/
def Sheet.scopeKeysIn (outer : List String) : List (String × Style) → List ScopeKey
  | [] => []
  | (key, s) :: rest => s.scopeKeysIn outer key ++ Sheet.scopeKeysIn outer rest

end

namespace Sheet

variable {properties : PropertyAliases} {keys : KeyAliases}

/-- The keys of all scopes in a tree, in order. -/
def scopeKeys (es : Sheet) : List ScopeKey :=
  scopeKeysIn [] es

/-- The keys of the scopes that open an at-rule, in order. -/
def atRuleKeys (es : Sheet) : List String :=
  (es.scopeKeys.map ScopeKey.key).filter (ScopeKind.ofKey · = .atRule)

theorem mem_scopeKeysIn {outer : List String} {k : ScopeKey} {es : Sheet} :
    k ∈ scopeKeysIn outer es ↔ ∃ e ∈ es, k ∈ e.2.scopeKeysIn outer e.1 := by
  induction es with
  | nil => simp [scopeKeysIn]
  | cons e rest ih => simp [scopeKeysIn, ih]

/-- What surrounds a tree makes no difference to the keys in it. -/
theorem map_key_scopeKeysIn (es : Sheet) (outer outer' : List String) :
    (scopeKeysIn outer es).map ScopeKey.key = (scopeKeysIn outer' es).map ScopeKey.key := by
  induction es using Sheet.induction generalizing outer outer' with
  | nil => rfl
  | scalar key v rest ih => exact ih outer outer'
  | scope key inner rest ihinner ih =>
    simp only [scopeKeysIn, Style.scopeKeysIn, List.map_append, List.map_cons]
    rw [ihinner (outer ++ [key]) (outer' ++ [key]), ih outer outer']

theorem mem_of_mem_atRuleKeys {key : String} {es : Sheet} (h : key ∈ atRuleKeys es) :
    ∃ k ∈ es.scopeKeys, k.key = key :=
  List.mem_map.mp (List.mem_filter.mp h).1

theorem atRuleKeys_scalar (key : String) (v : Scalar) (rest : Sheet) :
    atRuleKeys ((key, .scalar v) :: rest) = atRuleKeys rest :=
  rfl

theorem atRuleKeys_scope (key : String) (inner rest : Sheet) :
    atRuleKeys ((key, .scope inner) :: rest) =
      (if ScopeKind.ofKey key = .atRule then [key] else []) ++ atRuleKeys inner ++
        atRuleKeys rest := by
  have hkeys : (scopeKeys ((key, .scope inner) :: rest)).map ScopeKey.key =
      key :: inner.scopeKeys.map ScopeKey.key ++ rest.scopeKeys.map ScopeKey.key := by
    simp only [scopeKeys, scopeKeysIn, Style.scopeKeysIn, List.map_append, List.map_cons]
    rw [map_key_scopeKeysIn inner ([] ++ [key]) []]
  rw [atRuleKeys, hkeys, List.filter_append]
  by_cases hkind : ScopeKind.ofKey key = .atRule
  · rw [List.filter_cons_of_pos (by simpa using hkind), if_pos hkind]
    rfl
  · rw [List.filter_cons_of_neg (by simpa using hkind), if_neg hkind]
    rfl

theorem exists_of_mem_scopeKeysIn_expand (es : Sheet) :
    ∀ {outer : List String} {k : ScopeKey},
      k ∈ scopeKeysIn (outer.map keys.resolve) (es.expand properties keys) →
        ∃ source ∈ scopeKeysIn outer es, k = source.resolve keys := by
  induction es using Sheet.induction_scopes with
  | step es ih =>
    intro outer k h
    obtain ⟨⟨key, value⟩, he, hk⟩ := mem_scopeKeysIn.mp h
    obtain ⟨⟨l, s⟩, hentry, hwrites, hvalue⟩ := exists_writes_of_mem_expand he
    obtain rfl : value = _ := hvalue
    cases s with
    | scalar v =>
      -- What a declaration writes is no scope.
      simp [Style.expanded, Style.scopeKeysIn] at hk
    | scope inner =>
      obtain rfl : keys.resolve l = key := hwrites
      rcases List.mem_cons.mp hk with rfl | hk
      · exact ⟨⟨outer, l⟩, mem_scopeKeysIn.mpr ⟨_, hentry, List.mem_cons_self⟩, rfl⟩
      · have hinner : k ∈ scopeKeysIn ((outer ++ [l]).map keys.resolve)
            (expand properties keys inner) := by
          rwa [List.map_append]
        obtain ⟨source, hsource, heq⟩ := ih l inner hentry hinner
        exact ⟨source, mem_scopeKeysIn.mpr ⟨_, hentry, List.mem_cons_of_mem _ hsource⟩, heq⟩

/-- Every scope of an expanded tree stands at the aliased place of a scope of the source. -/
theorem exists_of_mem_scopeKeys_expand {es : Sheet} {k : ScopeKey}
    (h : k ∈ (es.expand properties keys).scopeKeys) :
    ∃ source ∈ es.scopeKeys, k = source.resolve keys :=
  @exists_of_mem_scopeKeysIn_expand properties keys es [] k h

theorem exists_of_mem_atRuleKeys_expand {es : Sheet} {key : String}
    (h : key ∈ (es.expand properties keys).atRuleKeys) :
    ∃ source ∈ es.scopeKeys, key = keys.resolve source.key := by
  obtain ⟨k, hk, rfl⟩ := mem_of_mem_atRuleKeys h
  obtain ⟨source, hsource, rfl⟩ := exists_of_mem_scopeKeys_expand hk
  exact ⟨source, hsource, rfl⟩

end Sheet

/-! ### Headers of blocks -/

mutual

/-- The headers in a block. -/
def Css.Block.headers : Css.Block → List String
  | .rule _ _ => []
  | .atRule header blocks => header :: Css.headers blocks

/-- The headers in a list of blocks, at any depth. -/
def Css.headers : List Css.Block → List String
  | [] => []
  | b :: rest => b.headers ++ Css.headers rest

end

namespace Css

variable {ctx : Context} {selectors : Selectors} {keys : KeyAliases}

theorem headers_append (bs cs : List Block) : headers (bs ++ cs) = headers bs ++ headers cs := by
  induction bs with
  | nil => simp [headers]
  | cons b bs ih => simp [headers, ih]

theorem headers_ownRule (nodes : List Node) : headers (ownRule ctx selectors nodes) = [] := by
  unfold ownRule
  split <;> rfl

theorem headers_scope (kind : ScopeKind) (selector : String) (children : List Node) :
    headers ((Node.scope kind selector children).blocks ctx selectors) =
      (if kind = .atRule then [selector] else []) ++
        headers (Node.nestedBlocks ctx (selectors.enter kind selector) children) := by
  cases kind <;> simp [Node.blocks, headers, Block.headers, headers_append, headers_ownRule]

theorem headers_nestedBlocks (es : Sheet) (selectors : Selectors) :
    headers (Node.nestedBlocks ctx selectors (Node.ofSheet keys es)) =
      es.atRuleKeys.map keys.resolve := by
  induction es using Sheet.induction generalizing selectors with
  | nil => rfl
  | scalar key v rest ih =>
    rw [Sheet.atRuleKeys_scalar]
    exact ih selectors
  | scope key inner rest ihinner ih =>
    rw [Sheet.atRuleKeys_scope, Node.ofSheet, Node.ofStyle, Node.nestedBlocks, headers_append,
      headers_scope, ihinner, ih, List.map_append, List.map_append]
    -- The key of an at-rule is looked up here; other kinds of scopes write no header.
    cases ScopeKind.ofKey key <;> rfl

/-- The headers are the texts of the at-rule keys, in order. -/
theorem headers_blocks (es : Sheet) :
    headers (blocks ctx selectors (Node.ofSheet keys es)) = es.atRuleKeys.map keys.resolve := by
  rw [blocks, headers_append, headers_ownRule, headers_nestedBlocks, List.nil_append]

end Css

/-! ### The second lookup -/

/-- The context with an empty table of key aliases. -/
def Context.withoutKeyAliases (ctx : Context) : Context :=
  { ctx with keyAliases := ∅ }

/-- The table leaves the at-rule keys of the tree as they are. -/
def KeyAliases.Fixes (keys : KeyAliases) (es : Sheet) : Prop :=
  ∀ key ∈ es.atRuleKeys, keys.resolve key = key

instance (keys : KeyAliases) (es : Sheet) : Decidable (keys.Fixes es) :=
  inferInstanceAs (Decidable (∀ key ∈ es.atRuleKeys, keys.resolve key = key))

/-- A table without chains, at least behind the keys of the source, leaves the expanded tree as it
is. -/
theorem KeyAliases.fixes_expand {properties : PropertyAliases} {keys : KeyAliases} {es : Sheet}
    (h : ∀ k ∈ es.scopeKeys, keys.resolve (keys.resolve k.key) = keys.resolve k.key) :
    keys.Fixes (es.expand properties keys) := by
  intro key hkey
  obtain ⟨source, hsource, rfl⟩ := Sheet.exists_of_mem_atRuleKeys_expand hkey
  exact h source hsource

/-- Where the table changes no at-rule key, nodes do not depend on it. -/
theorem Node.ofSheet_of_fixes {keys : KeyAliases} (es : Sheet) (h : keys.Fixes es) :
    Node.ofSheet keys es = Node.ofSheet ∅ es := by
  induction es using Sheet.induction with
  | nil => rfl
  | scalar key v rest ih =>
    rw [Node.ofSheet, Node.ofSheet, ih h]
    rfl
  | scope key inner rest ihinner ih =>
    rw [KeyAliases.Fixes, Sheet.atRuleKeys_scope] at h
    have hselector : (ScopeKind.ofKey key).selectorText keys key =
        (ScopeKind.ofKey key).selectorText ∅ key := by
      cases hkind : ScopeKind.ofKey key with
      | atRule => exact (h key (by simp [hkind])).trans (KeyAliases.resolve_empty key).symm
      | ampersand | descendant => rfl
    have hinner : keys.Fixes inner := fun key' hkey' => h key' (by simp [hkey'])
    have hrest : keys.Fixes rest := fun key' hkey' => h key' (by simp [hkey'])
    rw [Node.ofSheet, Node.ofSheet, Node.ofStyle, Node.ofStyle, hselector, ihinner hinner, ih hrest]

namespace Css

variable {ctx : Context} {selectors : Selectors}

/-- The blocks of a style tree as it is. -/
def sheetBlocks (ctx : Context) (selectors : Selectors) (es : Sheet) : List Block :=
  blocks ctx selectors (Node.ofSheet ctx.keyAliases es)

theorem css_renderSheet (es : Sheet) :
    (renderSheet ctx selectors es).css = text (sheetBlocks ctx selectors es) := by
  rw [renderSheet, render_eq, sheetBlocks]

/-- Blocks depend on the table of key aliases only through the nodes. -/
theorem nestedBlocks_withoutKeyAliases (nodes : List Node) (selectors : Selectors) :
    Node.nestedBlocks ctx.withoutKeyAliases selectors nodes =
      Node.nestedBlocks ctx selectors nodes := by
  induction nodes using Node.induction generalizing selectors with
  | nil => rfl
  | declaration property v rest ih =>
    rw [Node.nestedBlocks, Node.nestedBlocks, ih]
    rfl
  | scope kind selector children rest ihchildren ih =>
    have howns (inner : Selectors) :
        ownRule ctx.withoutKeyAliases inner children = ownRule ctx inner children := rfl
    rw [Node.nestedBlocks, Node.nestedBlocks, ih]
    cases kind <;> simp only [Node.blocks, howns, ihchildren]

theorem sheetBlocks_withoutKeyAliases (es : Sheet) :
    sheetBlocks ctx.withoutKeyAliases selectors es = blocks ctx selectors (Node.ofSheet ∅ es) := by
  rw [sheetBlocks, blocks, nestedBlocks_withoutKeyAliases]
  rfl

theorem headers_sheetBlocks (es : Sheet) :
    headers (sheetBlocks ctx selectors es) = es.atRuleKeys.map ctx.keyAliases.resolve :=
  headers_blocks es

theorem headers_sheetBlocks_withoutKeyAliases (es : Sheet) :
    headers (sheetBlocks ctx.withoutKeyAliases selectors es) = es.atRuleKeys := by
  rw [headers_sheetBlocks]
  exact (List.map_congr_left fun key _ => KeyAliases.resolve_empty key).trans (List.map_id' _)

/-- The table makes no difference exactly if it leaves every at-rule key as it is. -/
theorem sheetBlocks_eq_iff_fixes (es : Sheet) :
    sheetBlocks ctx selectors es = sheetBlocks ctx.withoutKeyAliases selectors es ↔
      ctx.keyAliases.Fixes es := by
  constructor
  · intro h
    -- The headers alone tell the two apart.
    have hheaders := congrArg headers h
    rw [headers_sheetBlocks, headers_sheetBlocks_withoutKeyAliases] at hheaders
    intro key hkey
    exact List.map_inj_left.mp (hheaders.trans (List.map_id' _).symm) key hkey
  · intro h
    rw [sheetBlocks_withoutKeyAliases, sheetBlocks, Node.ofSheet_of_fixes es h]

/-- The headers in the style sheet of an expanded tree. Expansion gives every scope the text of its
key, and at-rules get the text of that in turn. Writing with an empty table leaves this second
lookup out, which yields the same blocks exactly if the table leaves the at-rule keys of the
expanded tree as they are; so it does if no alias text behind a key of the source is an alias. -/
theorem headers_renderSheet_expand (ctx : Context) (es : Sheet) (selectors : Selectors) :
    let expanded := ctx.expand es
    let twice := sheetBlocks ctx selectors expanded
    let once := sheetBlocks ctx.withoutKeyAliases selectors expanded
    (renderSheet ctx selectors expanded).css = text twice ∧
      (renderSheet ctx.withoutKeyAliases selectors expanded).css = text once ∧
      (∀ k ∈ expanded.scopeKeys, ∃ source ∈ es.scopeKeys, k = source.resolve ctx.keyAliases) ∧
      headers once = expanded.atRuleKeys ∧
      headers twice = expanded.atRuleKeys.map ctx.keyAliases.resolve ∧
      (∀ header ∈ headers twice, ∃ source ∈ es.scopeKeys,
        header = ctx.keyAliases.resolve (ctx.keyAliases.resolve source.key)) ∧
      (twice = once ↔ ctx.keyAliases.Fixes expanded) ∧
      (Legible twice → Legible once → (text twice = text once ↔ ctx.keyAliases.Fixes expanded)) ∧
      ((∀ k ∈ es.scopeKeys, ctx.keyAliases.resolve (ctx.keyAliases.resolve k.key) =
        ctx.keyAliases.resolve k.key) → text twice = text once) := by
  intro expanded twice once
  have hblocks : twice = once ↔ ctx.keyAliases.Fixes expanded := sheetBlocks_eq_iff_fixes expanded
  have hheaders : headers twice = expanded.atRuleKeys.map ctx.keyAliases.resolve :=
    headers_sheetBlocks expanded
  refine ⟨css_renderSheet expanded, css_renderSheet expanded, ?_,
    headers_sheetBlocks_withoutKeyAliases expanded, hheaders, ?_, hblocks, ?_, ?_⟩
  · intro k hk
    exact Sheet.exists_of_mem_scopeKeys_expand hk
  · intro header hheader
    rw [hheaders] at hheader
    obtain ⟨key, hkey, rfl⟩ := List.mem_map.mp hheader
    obtain ⟨source, hsource, rfl⟩ := Sheet.exists_of_mem_atRuleKeys_expand hkey
    exact ⟨source, hsource, rfl⟩
  · intro htwice honce
    exact (text_eq_iff htwice honce).trans hblocks
  · intro hchains
    exact congrArg text (hblocks.mpr (KeyAliases.fixes_expand hchains))

/-- The alias text of a tablet is no alias, so its header is what the table says. -/
theorem headers_renderSheet_expand_tablet :
    let keys : KeyAliases := Table.ofList [("@tablet", "@media (min-width: 768px)")]
    let ctx : Context := ⟨.defaults, keys, [], ∅⟩
    let es : Sheet := [("@tablet", .scope [("p", .scalar (.text "1px"))])]
    let twice := sheetBlocks ctx (.top ".card") (ctx.expand es)
    let once := sheetBlocks ctx.withoutKeyAliases (.top ".card") (ctx.expand es)
    (∀ k ∈ es.scopeKeys, keys.resolve (keys.resolve k.key) = keys.resolve k.key) ∧
      Legible twice ∧ Legible once ∧ headers twice = ["@media (min-width: 768px)"] ∧
      text twice = text once ∧ keys.Fixes (ctx.expand es) := by
  intro keys ctx es twice once
  have hchains : ∀ k ∈ es.scopeKeys, keys.resolve (keys.resolve k.key) = keys.resolve k.key := by
    decide
  have hexpanded : ctx.expand es =
      [("@media (min-width: 768px)", .scope [("padding", .scalar (.text "1px"))])] := rfl
  have hblocks : twice = [.atRule "@media (min-width: 768px)"
      [.rule ".card" [⟨"padding", "1px"⟩]]] := by
    simp only [twice, sheetBlocks, hexpanded]
    rfl
  have htwice : Legible twice := by
    rw [hblocks]
    refine ⟨⟨by decide, ⟨by decide, by simp, ?_⟩, trivial⟩, trivial⟩
    intro d hd
    obtain rfl := List.mem_singleton.mp hd
    exact ⟨by decide, by decide, by decide⟩
  obtain ⟨-, -, -, -, hheaders, -, hsame, htexts, htext⟩ :=
    headers_renderSheet_expand ctx es (.top ".card")
  have honce : Legible once := by
    have heq : twice = once := hsame.mpr (by decide)
    rwa [← heq]
  exact ⟨hchains, htwice, honce, hheaders.trans (by decide), htext hchains,
    (htexts htwice honce).mp (htext hchains)⟩

/-- An alias whose text is an alias again: the header is not the text of the key, and the text of
the style sheet is not the one without the table. -/
theorem headers_renderSheet_expand_chain :
    let keys : KeyAliases := Table.ofList [("@a", "@b"), ("@b", "@c")]
    let ctx : Context := ⟨∅, keys, [], ∅⟩
    let es : Sheet := [("@a", .scope [("color", .scalar (.text "red"))])]
    let selectors := Selectors.top ".c"
    ¬ (∀ header ∈ headers (sheetBlocks ctx selectors (ctx.expand es)),
        ∃ k ∈ es.scopeKeys, header = keys.resolve k.key) ∧
      (renderSheet ctx selectors (ctx.expand es)).css ≠
        (renderSheet ctx.withoutKeyAliases selectors (ctx.expand es)).css := by
  decide

end Css

end StyleTree
