import StyleTree.Compile
import StyleTree.Proofs.Style.Reading

/-!
# Expanded trees

An expanded tree is made of the entries of its source: it has no other numbers and no more levels,
and no key in it is repeated. Where no alias leads to another alias, nothing in it is left to be
replaced, so it is a normal form: to expand it again changes nothing, not even an order, and it has
the class name and the style sheet of its source. Numbers are only carried along.

## Main definitions

* `PropertyAliases.Unchained`, `KeyAliases.Unchained`, `Context.Unchained` — no alias leads to
  another one
* `Sheet.Normal` — nothing in the tree is left to be replaced

## Main results

* `exists_mem_leaves_of_mem_expand`, `distinctKeys_expand`, `levels_expand_le` — what an expanded
  tree has from its source
* `expand_eq_self_of_normal`, `normal_expand` — normal forms are not changed, and an expanded tree
  is one
* `expand_idempotent` — to expand a tree twice, or to compile it expanded, makes no difference
* `expand_mapNumbers` — expansion carries numbers along
-/

namespace StyleTree

/-- No property that a shorthand stands for is a shorthand again, other than one for itself. -/
def PropertyAliases.Unchained (aliases : PropertyAliases) : Prop :=
  ∀ entry ∈ aliases.entries, ∀ target ∈ entry.2,
    aliases.get? target = none ∨ aliases.get? target = some [target]

instance (aliases : PropertyAliases) : Decidable aliases.Unchained :=
  inferInstanceAs (Decidable (∀ entry ∈ aliases.entries, ∀ target ∈ entry.2,
    aliases.get? target = none ∨ aliases.get? target = some [target]))

/-- No text of a key alias is a key alias again, other than one for itself. -/
def KeyAliases.Unchained (aliases : KeyAliases) : Prop :=
  ∀ entry ∈ aliases.entries,
    aliases.get? entry.2 = none ∨ aliases.get? entry.2 = some entry.2

instance (aliases : KeyAliases) : Decidable aliases.Unchained :=
  inferInstanceAs (Decidable (∀ entry ∈ aliases.entries,
    aliases.get? entry.2 = none ∨ aliases.get? entry.2 = some entry.2))

/-- No alias of the context leads to another one. -/
structure Context.Unchained (ctx : Context) : Prop where
  properties : ctx.propertyAliases.Unchained
  keys : ctx.keyAliases.Unchained

/-- The built-in shorthands stand for properties in full. -/
theorem Context.unchained_standard : standard.Unchained :=
  ⟨by decide +kernel, by decide⟩

theorem PropertyAliases.Unchained.targets_eq {aliases : PropertyAliases} (h : aliases.Unchained)
    {key target : String} (htarget : target ∈ aliases.targets key) :
    aliases.targets target = [target] := by
  rw [targets] at htarget
  cases hkey : aliases.get? key with
  | none =>
    rw [hkey] at htarget
    obtain rfl := List.mem_singleton.mp htarget
    exact targets_of_get?_eq_none hkey
  | some targets =>
    rw [hkey] at htarget
    rcases h _ (Entries.mem_of_get?_eq_some hkey) target htarget with hnone | hself
    · exact targets_of_get?_eq_none hnone
    · rw [PropertyAliases.targets, hself, Option.getD_some]

theorem KeyAliases.Unchained.resolve_resolve {aliases : KeyAliases} (h : aliases.Unchained)
    (key : String) : aliases.resolve (aliases.resolve key) = aliases.resolve key := by
  cases hkey : aliases.get? key with
  | none => simp only [resolve, hkey, Option.getD_none]
  | some text =>
    have hresolve : aliases.resolve key = text := by rw [resolve, hkey, Option.getD_some]
    rw [hresolve]
    rcases h _ (Entries.mem_of_get?_eq_some hkey) with hnone | hself
    · exact congrArg (Option.getD · text) hnone
    · exact congrArg (Option.getD · text) hself

variable {properties : PropertyAliases} {keys : KeyAliases} {g : Number → Number} {es : Sheet}
  {n : Nat}

namespace Sheet

/-! ### What an expanded tree is made of -/

/-- Expansion makes up no values. -/
theorem exists_mem_leaves_of_mem_expand (es : Sheet) :
    ∀ {k : String} {v : Scalar}, (k, v) ∈ (es.expand properties keys).leaves →
      ∃ k', (k', v) ∈ es.leaves := by
  induction es using induction_scopes with
  | step es ih =>
    intro k v hleaf
    obtain ⟨e, he, hleaf⟩ := mem_leaves_iff.mp hleaf
    obtain ⟨⟨l, s⟩, hentry, -, hvalue⟩ := exists_writes_of_mem_expand he
    rw [hvalue] at hleaf
    cases s with
    | scalar w =>
      obtain ⟨-, rfl⟩ := Prod.mk.inj (List.mem_singleton.mp hleaf)
      exact ⟨l, mem_leaves_iff.mpr ⟨_, hentry, List.mem_singleton.mpr rfl⟩⟩
    | scope inner =>
      obtain ⟨k', hk'⟩ := ih l inner hentry hleaf
      exact ⟨k', mem_leaves_iff.mpr ⟨_, hentry, hk'⟩⟩

/-- No key of an expanded tree is repeated, at any level. -/
theorem distinctKeys_expand (es : Sheet) : DistinctKeys (es.expand properties keys) := by
  induction es using induction_scopes with
  | step es ih =>
    refine distinctKeys_iff.mpr ⟨nodup_keys_expand, fun e he => ?_⟩
    obtain ⟨⟨l, s⟩, hentry, -, hvalue⟩ := exists_writes_of_mem_expand he
    rw [hvalue]
    cases s with
    | scalar v => trivial
    | scope inner => exact ih l inner hentry

theorem levels_le_iff : es.levels ≤ n ↔ 0 < n ∧ ∀ e ∈ es, e.2.levels < n := by
  induction es with
  | nil => simp [levels, Nat.one_le_iff_ne_zero, Nat.pos_iff_ne_zero]
  | cons e rest ih =>
    rw [levels, Nat.max_le, ih, List.forall_mem_cons, Nat.succ_le_iff]
    tauto

/-- Expansion nests no deeper than its source. -/
theorem levels_expand_le (es : Sheet) : (es.expand properties keys).levels ≤ es.levels := by
  induction es using induction_scopes with
  | step es ih =>
    refine levels_le_iff.mpr ⟨levels_pos es, fun e he => ?_⟩
    obtain ⟨⟨l, s⟩, hentry, -, hvalue⟩ := exists_writes_of_mem_expand he
    -- The entry that is written comes from one of the source, which is below the levels of `es`.
    have hlevels : s.levels < es.levels := (levels_le_iff.mp (Nat.le_refl _)).2 _ hentry
    rw [hvalue]
    cases s with
    | scalar v => exact levels_pos es
    | scope inner => exact Nat.lt_of_le_of_lt (ih l inner hentry) hlevels

/-! ### Normal forms -/

/-- Nothing in the tree is left to be replaced, at any level: no key is repeated, a declaration
stands at the one property that its key stands for, and the key of a scope stands for itself. -/
inductive Normal (properties : PropertyAliases) (keys : KeyAliases) : Sheet → Prop where
  | intro {es : Sheet} (hdistinct : (Entries.keys es).Nodup)
    (hscalar : ∀ k v, (k, Style.scalar v) ∈ es → properties.targets k = [k])
    (hscope : ∀ k inner, (k, Style.scope inner) ∈ es → keys.resolve k = k)
    (hinner : ∀ k inner, (k, Style.scope inner) ∈ es → Normal properties keys inner) :
    Normal properties keys es

/-- A tree in which every entry writes itself alone is its own expansion. -/
theorem expand_eq_self (hes : (Entries.keys es).Nodup)
    (h : ∀ e ∈ es, e.2.contributions properties keys e.1 = [e]) :
    es.expand properties keys = es := by
  have hall : contributions properties keys es = es := by
    clear hes
    induction es with
    | nil => rfl
    | cons e rest ih =>
      rw [contributions, h e List.mem_cons_self, ih fun f hf => h f (List.mem_cons_of_mem _ hf)]
      rfl
  rw [expand, hall, Entries.ofList_eq_self hes]

/-- A normal form is its own expansion, by any tables. -/
theorem expand_eq_self_of_normal (h : Normal properties keys es) :
    es.expand properties keys = es := by
  induction h with
  | intro hdistinct hscalar hscope _ ih =>
    refine expand_eq_self hdistinct fun e he => ?_
    obtain ⟨k, s⟩ := e
    cases s with
    | scalar v => rw [Style.contributions, hscalar k v he, List.map_singleton]
    | scope inner =>
      have hinner : Entries.ofList (contributions properties keys inner) = inner := ih k inner he
      rw [Style.contributions, hscope k inner he, hinner]

/-- An expanded tree is a normal form if no alias leads to another one. -/
theorem normal_expand (hproperties : properties.Unchained) (hkeys : keys.Unchained) (es : Sheet) :
    Normal properties keys (es.expand properties keys) := by
  induction es using induction_scopes with
  | step es ih =>
    refine .intro nodup_keys_expand (fun k v hmem => ?_) (fun k inner hmem => ?_)
      fun k inner hmem => ?_
    · -- The key is a property that a declaration has been written to.
      obtain ⟨l, -, htarget⟩ := exists_of_scalar_mem_expand hmem
      exact hproperties.targets_eq htarget
    · -- The key is the text of an alias, or no alias at all.
      obtain ⟨l, source, -, rfl, -⟩ := exists_of_scope_mem_expand hmem
      exact hkeys.resolve_resolve l
    · obtain ⟨l, source, hentry, -, rfl⟩ := exists_of_scope_mem_expand hmem
      exact ih l source hentry

/-- Nothing is left for a second expansion. -/
theorem expand_expand (hproperties : properties.Unchained) (hkeys : keys.Unchained) (es : Sheet) :
    (es.expand properties keys).expand properties keys = es.expand properties keys :=
  expand_eq_self_of_normal (normal_expand hproperties hkeys es)

/-- What is compiled is the expanded tree, so a tree that is expanded already compiles as before. -/
theorem compileClass_expand {ctx : Context} (h : ctx.Unchained) (es : Sheet) (options : Options) :
    compileClass (ctx.expand es) ctx options = compileClass es ctx options := by
  have hexpand : ctx.expand (ctx.expand es) = ctx.expand es := expand_expand h.properties h.keys es
  rw [compileClass, hexpand, compileClass]

/-- Where no alias leads to another one, expansion takes a tree to a normal form and leaves exactly
the normal forms as they are, with every entry at its place. So to expand a tree twice is to expand
it once. The built-in aliases are of this kind. A tree that is expanded before it is compiled has
the same class name and style sheet, or the same error, as without that. -/
theorem expand_idempotent :
    (∀ (properties : PropertyAliases) (keys : KeyAliases), properties.Unchained → keys.Unchained →
      ∀ es : Sheet,
        Normal properties keys (es.expand properties keys) ∧
        (es.expand properties keys = es ↔ Normal properties keys es) ∧
        (es.expand properties keys).expand properties keys = es.expand properties keys) ∧
    (∀ es : Sheet, Context.standard.expand (Context.standard.expand es) =
      Context.standard.expand es) ∧
    ∀ ctx : Context, ctx.Unchained → ∀ (es : Sheet) (options : Options),
      compileClass (ctx.expand es) ctx options = compileClass es ctx options := by
  refine ⟨fun properties keys hproperties hkeys es => ?_, ?_, fun ctx => compileClass_expand⟩
  · have hnormal := normal_expand hproperties hkeys es
    exact ⟨hnormal, ⟨fun heq => heq ▸ hnormal, expand_eq_self_of_normal⟩,
      expand_expand hproperties hkeys es⟩
  · have hstandard := Context.unchained_standard
    exact expand_expand hstandard.properties hstandard.keys

/-- A shorthand and a longhand that meet, an alias that stands for itself, and a scope that takes
the place of a declaration. -/
theorem expand_idempotent_tablet :
    let ctx : Context := { Context.standard with
      propertyAliases := PropertyAliases.defaults.insert "gap" ["gap"]
      keyAliases := Table.ofList [("@tablet", "@media print")] }
    let es : Sheet := [("mx", .scalar (.text "1px")), ("@media print", .scalar (.text "0")),
      ("marginLeft", .scalar (.text "2px")), ("gap", .scalar (.text "3px")),
      ("@tablet", .scope [("p", .scalar (.text "4px"))])]
    ctx.Unchained ∧
      Normal ctx.propertyAliases ctx.keyAliases (ctx.expand es) ∧
      ctx.expand (ctx.expand es) = ctx.expand es ∧
      compileClass (ctx.expand es) ctx {} = compileClass es ctx {} := by
  intro ctx es
  have hctx : ctx.Unchained := ⟨by decide +kernel, by decide +kernel⟩
  obtain ⟨htables, -, hcompile⟩ := expand_idempotent
  obtain ⟨hnormal, -, hexpand⟩ :=
    htables ctx.propertyAliases ctx.keyAliases hctx.properties hctx.keys es
  exact ⟨hctx, hnormal, hexpand, hcompile ctx hctx es {}⟩

/-! ### Numbers -/

theorem mapNumbers_eq_map (es : Sheet) :
    es.mapNumbers g = es.map fun e => (e.1, e.2.mapNumbers g) := by
  induction es with
  | nil => rfl
  | cons e rest ih => rw [mapNumbers, ih, List.map_cons]

theorem contributions_mapNumbers (es : Sheet) :
    contributions properties keys (es.mapNumbers g) =
      (contributions properties keys es).map fun e => (e.1, e.2.mapNumbers g) := by
  induction es using Sheet.induction with
  | nil => rfl
  | scalar k v rest ih =>
    have hscalar : ∃ w, (Style.scalar v).mapNumbers g = .scalar w := by cases v <;> exact ⟨_, rfl⟩
    obtain ⟨w, hw⟩ := hscalar
    rw [mapNumbers, contributions, contributions, List.map_append, ih, hw]
    simp [Style.contributions, hw]
  | scope k inner rest ihinner ih =>
    rw [mapNumbers, contributions, contributions, List.map_append, ih]
    simp only [Style.mapNumbers, Style.contributions, ihinner, Entries.ofList_map,
      List.map_cons, List.map_nil]
    rw [mapNumbers_eq_map]

/-- Expansion carries numbers along. -/
theorem expand_mapNumbers (es : Sheet) :
    (es.mapNumbers g).expand properties keys = (es.expand properties keys).mapNumbers g := by
  rw [expand, expand, contributions_mapNumbers, Entries.ofList_map, mapNumbers_eq_map]

end Sheet

end StyleTree
