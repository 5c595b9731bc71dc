import Mathlib.Control.Monad.Basic
import StyleTree.Proofs.Config.Reading
import StyleTree.Proofs.Token.Overlay

/-!
# Applying a configuration

A configuration is laid over a context, table by table: an entry that it gives counts, and every
other entry stays. So it makes no difference whether it is applied once or twice, and in which order
its entries are taken. With the wish to start from empty tables the context makes no difference
either.

The token trees of a context and of a configuration are taken to be sorted at every level. The
built-in contexts are, a configuration keeps a context so, and a configuration that is read is so.

## Main definitions

* `Context.Ordered` — the token tree is sorted at every level
* `Config.Covers` — a table with another one laid over it, told by lookups
* `Config.Applied` — the outcomes of applying a configuration with its entries in any order

## Main results

* `Table.get?_extend`, `Table.extend_perm` — of the entries written over a table the last one counts
* `Config.apply_overlay` — a configuration is an idempotent overlay
-/

namespace StyleTree

/-- The token tree of the context is sorted at every level. -/
def Context.Ordered (ctx : Context) : Prop := (Token.group ctx.tokens).Ordered

/-! ### Tables -/

namespace Table

variable {α : Type} {table given : Table α} {key : String} {es order : List (String × α)}

/-- Of the entries that are written over a table the last one with the key counts. -/
theorem get?_extend (table : Table α) (es : List (String × α)) :
    (table.extend es).get? key = (Entries.get? key es.reverse).or (table.get? key) := by
  induction es generalizing table with
  | nil => rfl
  | cons e rest ih =>
    have hstep : table.extend (e :: rest) = (table.insert e.1 e.2).extend rest := rfl
    rw [hstep, ih, get?_insert, List.reverse_cons, Entries.get?_append, Option.or_assoc]
    congr 1
    rw [Entries.get?]
    split <;> rfl

/-- Entries without repeated keys can be written in any order. -/
theorem extend_perm (table : Table α) (h : order.Perm es) (hes : (Entries.keys es).Nodup) :
    table.extend order = table.extend es := by
  refine ext_get? fun key => ?_
  rw [get?_extend, get?_extend, Entries.get?_perm ((order.reverse_perm.trans h).trans
    es.reverse_perm.symm) ((es.reverse_perm.map Prod.fst).nodup_iff.mpr hes)]

theorem get?_extend_entries (table given : Table α) :
    (table.extend given.entries).get? key = (given.get? key).or (table.get? key) := by
  rw [get?_extend, Entries.get?_perm given.entries.reverse_perm given.sorted.nodup_keys]
  rfl

end Table

namespace Config

variable {config : Config} {ctx result : Context}

/-- The result is a table with another one, if any is given, laid over it: the given entries count,
and without a table nothing changes. -/
structure Covers {α : Type} (given : Option (Table α)) (table result : Table α) : Prop where
  get?_eq : ∀ key, result.get? key = (given.bind (·.get? key)).or (table.get? key)
  eq_of_none : given = none → result = table

/-- The result is a table with the entries of another one, if any is given, written over it in any
order. -/
def Overlaid {α : Type} (given : Option (Table α)) (table result : Table α) : Prop :=
  match given with
  | none => result = table
  | some given => ∃ order, order.Perm given.entries ∧ result = table.extend order

/-- The result is a token tree with another one, if any is given, laid over it in any order. -/
def TokensLaid (given : Option TokenTree) (present result : TokenTree) : Prop :=
  match given with
  | none => result = present
  | some given => ∃ order, order.Perm given ∧ TokenTree.Laid order present result

/-- The context that the tables of a configuration are laid over. -/
def start (config : Config) (ctx : Context) : Context :=
  if config.resetDefaults.getD false then .empty else ctx

/-- An outcome of applying the configuration, with the entries of each table and the tokens of each
group in any order. -/
structure Applied (config : Config) (ctx result : Context) : Prop where
  propertyAliases : Overlaid config.propertyAliases (config.start ctx).propertyAliases
    result.propertyAliases
  keyAliases : Overlaid config.keyAliases (config.start ctx).keyAliases result.keyAliases
  tokens : TokensLaid config.tokens (config.start ctx).tokens result.tokens
  tokenGroups : Overlaid config.tokenGroups (config.start ctx).tokenGroups result.tokenGroups

/-! ### A table of a configuration -/

section Overlay

variable {α : Type} {given : Option (Table α)} {table result : Table α}

theorem covers_overlay (given : Option (Table α)) (table : Table α) :
    Covers given table (overlay given table) := by
  cases given with
  | none => exact ⟨fun _ => rfl, fun _ => rfl⟩
  | some given => exact ⟨fun key => Table.get?_extend_entries table given, nofun⟩

/-- Laying a table over another one a second time changes nothing. -/
theorem overlay_overlay (given : Option (Table α)) (table : Table α) :
    overlay given (overlay given table) = overlay given table := by
  refine Table.ext_get? fun key => ?_
  rw [(covers_overlay given _).get?_eq, (covers_overlay given _).get?_eq, ← Option.or_assoc,
    Option.or_self]

theorem overlaid_iff : Overlaid given table result ↔ result = overlay given table := by
  cases given with
  | none => exact Iff.rfl
  | some given =>
    constructor
    · rintro ⟨order, horder, rfl⟩
      exact table.extend_perm horder given.sorted.nodup_keys
    · rintro rfl
      exact ⟨given.entries, .refl _, rfl⟩

end Overlay

/-! ### The tokens of a configuration -/

section Tokens

variable {given : Option TokenTree} {present result : TokenTree}

/-- The token tree with the one of a configuration, if it has any, laid over it. -/
def overlayTokens (given : Option TokenTree) (present : TokenTree) : TokenTree :=
  given.elim present present.merge

theorem ordered_overlayTokens (hgiven : ∀ tokens ∈ given, (Token.group tokens).Ordered)
    (hpresent : (Token.group present).Ordered) :
    (Token.group (overlayTokens given present)).Ordered := by
  cases given with
  | none => exact hpresent
  | some tokens =>
    exact TokenTree.ordered_overlay tokens (Token.ordered_group_iff.mp (hgiven _ rfl)).2 hpresent

theorem overlayTokens_overlayTokens (hgiven : ∀ tokens ∈ given, (Token.group tokens).Ordered)
    (hpresent : (Token.group present).Ordered) :
    overlayTokens given (overlayTokens given present) = overlayTokens given present := by
  cases given with
  | none => rfl
  | some tokens => exact TokenTree.overlay_overlay tokens (hgiven _ rfl) hpresent

theorem tokensLaid_iff (hgiven : ∀ tokens ∈ given, (Token.group tokens).Ordered)
    (hpresent : (Token.group present).Ordered) :
    TokensLaid given present result ↔ result = overlayTokens given present := by
  cases given with
  | none => exact Iff.rfl
  | some tokens => exact TokenTree.laid_iff (hgiven _ rfl) hpresent

end Tokens

/-! ### A whole configuration -/

/-- Applying a configuration lays each of its tables over that of the starting context. -/
theorem apply_eq (config : Config) (ctx : Context) :
    config.apply ctx =
      { propertyAliases := overlay config.propertyAliases (config.start ctx).propertyAliases
        keyAliases := overlay config.keyAliases (config.start ctx).keyAliases
        tokens := overlayTokens config.tokens (config.start ctx).tokens
        tokenGroups := overlay config.tokenGroups (config.start ctx).tokenGroups } := by
  obtain ⟨family, propertyAliases, keyAliases, tokens, tokenGroups, resetDefaults, strict⟩ := config
  cases tokens <;> rfl

theorem ordered_start (config : Config) (hctx : ctx.Ordered) : (config.start ctx).Ordered := by
  rw [start]
  split
  · exact Token.ordered_group_nil
  · exact hctx

/-- A configuration keeps the token tree of a context sorted. -/
theorem ordered_apply (hconfig : config.Ordered) (hctx : ctx.Ordered) :
    (config.apply ctx).Ordered := by
  rw [apply_eq]
  exact ordered_overlayTokens hconfig (ordered_start config hctx)

theorem start_of_reset (h : config.resetDefaults = some true) : config.start ctx = .empty := by
  rw [start, h]
  rfl

theorem start_of_not_reset (h : config.resetDefaults ≠ some true) : config.start ctx = ctx := by
  rw [start, if_neg]
  cases hreset : config.resetDefaults with
  | none => decide
  | some reset =>
    cases reset with
    | false => decide
    | true => exact absurd hreset h

theorem apply_apply (hconfig : config.Ordered) (hctx : ctx.Ordered) :
    config.apply (config.apply ctx) = config.apply ctx := by
  by_cases hreset : config.resetDefaults = some true
  · -- Starting from empty tables, nothing of the first application is left.
    rw [apply_eq, apply_eq, start_of_reset hreset, start_of_reset hreset]
  · have htokens := overlayTokens_overlayTokens hconfig hctx
    rw [apply_eq, apply_eq, start_of_not_reset hreset, start_of_not_reset hreset]
    simp only [overlay_overlay, htokens]

/-- In whatever order the entries of a configuration are taken, the outcome is one. -/
theorem applied_iff (hconfig : config.Ordered) (hctx : ctx.Ordered) :
    config.Applied ctx result ↔ result = config.apply ctx := by
  have hstart : (Token.group (config.start ctx).tokens).Ordered := ordered_start config hctx
  rw [apply_eq]
  constructor
  · rintro ⟨hproperties, hkeys, htokens, hgroups⟩
    obtain ⟨properties, keys, tokens, groups⟩ := result
    obtain rfl : properties = _ := overlaid_iff.mp hproperties
    obtain rfl : keys = _ := overlaid_iff.mp hkeys
    obtain rfl : tokens = _ := (tokensLaid_iff hconfig hstart).mp htokens
    obtain rfl : groups = _ := overlaid_iff.mp hgroups
    rfl
  · rintro rfl
    exact ⟨overlaid_iff.mpr rfl, overlaid_iff.mpr rfl, (tokensLaid_iff hconfig hstart).mpr rfl,
      overlaid_iff.mpr rfl⟩

/-- Applying a configuration is an idempotent overlay. A configuration that is read has a sorted
token tree, and applied to a context with a sorted one it leaves a sorted one. A second time changes
nothing; with the wish to start from empty tables the context makes no difference; otherwise the
given entries count in each of the three flat tables, all other entries stay, and a table that is
not given is left as it is, the token tree included. In whatever order the entries of the tables and
the tokens of each group are taken, the outcome is the same. -/
theorem apply_overlay :
    (∀ (source path : String) (config : Config), Config.ofDocument source path = .ok config →
      config.Ordered) ∧
    ∀ (config : Config) (ctx : Context), config.Ordered → ctx.Ordered →
      (config.apply ctx).Ordered ∧
      config.apply (config.apply ctx) = config.apply ctx ∧
      (config.resetDefaults = some true → config.apply ctx = config.apply .empty) ∧
      (config.resetDefaults ≠ some true →
        Covers config.propertyAliases ctx.propertyAliases (config.apply ctx).propertyAliases ∧
        Covers config.keyAliases ctx.keyAliases (config.apply ctx).keyAliases ∧
        Covers config.tokenGroups ctx.tokenGroups (config.apply ctx).tokenGroups ∧
        (config.tokens = none → (config.apply ctx).tokens = ctx.tokens)) ∧
      ∀ result, config.Applied ctx result ↔ result = config.apply ctx := by
  refine ⟨fun _ _ _ => ordered_of_ofDocument, fun config ctx hconfig hctx => ?_⟩
  refine ⟨ordered_apply hconfig hctx, apply_apply hconfig hctx, ?_, ?_,
    fun result => applied_iff hconfig hctx⟩
  · intro hreset
    rw [apply_eq, apply_eq, start_of_reset hreset, start_of_reset hreset]
  · intro hreset
    rw [apply_eq, start_of_not_reset hreset]
    refine ⟨covers_overlay _ _, covers_overlay _ _, covers_overlay _ _, fun htokens => ?_⟩
    rw [htokens]
    rfl

/-- A configuration that is read: a group of tokens is laid over the one of the context, and a text
is given for a key. -/
theorem apply_overlay_palette :
    let source := "\x7b\"key_aliases\": \x7b\"@tablet\": \"@media print\"\x7d, " ++
      "\"tokens\": \x7b\"color\": \x7b\"red\": \"#f00\", \"blue\": \"#00f\"\x7d\x7d\x7d"
    let config : Config := {
      keyAliases := some (Table.ofList [("@tablet", "@media print")])
      tokens := some [("color", .group [("blue", .value "#00f"), ("red", .value "#f00")])] }
    let ctx : Context := { Context.standard with tokens := TokenTree.insert [] "color.blue" "navy" }
    Config.ofDocument source "palette.json" = .ok config ∧ config.Ordered ∧ ctx.Ordered ∧
      config.resetDefaults ≠ some true ∧
      config.apply (config.apply ctx) = config.apply ctx ∧
      (config.apply ctx).keyAliases.get? "@tablet" = some "@media print" ∧
      (config.apply ctx).propertyAliases = ctx.propertyAliases := by
  intro source config ctx
  have hread : Config.ofDocument source "palette.json" = .ok config := by decide +kernel
  have hconfig : config.Ordered := apply_overlay.1 source "palette.json" config hread
  have hctx : ctx.Ordered := Token.ordered_group_nil.insert "color.blue" "navy"
  have hreset : config.resetDefaults ≠ some true := by decide
  obtain ⟨-, htwice, -, hflat, -⟩ := apply_overlay.2 config ctx hconfig hctx
  obtain ⟨hproperties, hkeys, -, -⟩ := hflat hreset
  refine ⟨hread, hconfig, hctx, hreset, htwice, ?_, hproperties.eq_of_none rfl⟩
  rw [hkeys.get?_eq]
  decide +kernel

end Config

end StyleTree
