import StyleTree.Config.Document
import StyleTree.Proofs.Token.Ordered

/-!
# Configurations that are read

The token tree of a configuration is sorted at every level if it is read from a document, be it an
object, an array of fields or a table: the tree is built by writing each token at its segment, and
no other field touches it.

## Main definitions

* `Config.Ordered` — the token tree is sorted at every level

## Main results

* `Config.ordered_of_ofDocument` — the token tree of a configuration that is read
-/

namespace StyleTree

open Json (Reader)

/-- The token tree of the configuration, if there is one, is sorted at every level. -/
def Config.Ordered (config : Config) : Prop :=
  ∀ tokens ∈ config.tokens, (Token.group tokens).Ordered

/-! ### Objects and arrays -/

/-- A value that may be null is nothing, or a value of its kind. -/
theorem Json.Reader.optional_keeps {α : Type} {P : α → Prop} {value : Reader α} {a : Option α}
    {cs rest : List Char} (hvalue : ∀ cs a rest, value cs = .ok (a, rest) → P a)
    (h : Reader.optional value cs = .ok (a, rest)) : ∀ b ∈ a, P b := by
  rw [Reader.optional] at h
  split at h
  · next letters _ =>
    rcases Reader.name_cases (none : Option α) ['u', 'l', 'l'] letters with
      ⟨behind, rfl⟩ | ⟨fault, hfault, -⟩
    · rw [Reader.name_append] at h
      obtain ⟨rfl, -⟩ := Prod.mk.inj (Except.ok.inj h)
      exact fun _ hb => nomatch hb
    · cases hfault.symm.trans h
  · obtain ⟨⟨b, rest'⟩, hread, heq⟩ := exists_of_map_eq_ok h
    obtain ⟨rfl, -⟩ := Prod.mk.inj heq
    rintro _ ⟨⟩
    exact hvalue _ _ _ hread

namespace Config

variable {config config' : Config} {cs rest : List Char}

theorem ordered_of_readField {field : Field} (hconfig : config.Ordered)
    (h : readField config field cs = .ok (config', rest)) : config'.Ordered := by
  cases field with
  | tokens =>
    obtain ⟨⟨tokens, rest'⟩, hread, heq⟩ := exists_of_map_eq_ok h
    obtain ⟨rfl, -⟩ := Prod.mk.inj heq
    exact Reader.optional_keeps (fun _ _ _ => TokenTree.ordered_of_read) hread
  | family | propertyAliases | keyAliases | tokenGroups | resetDefaults | strict =>
    -- The other fields leave the token tree as it is.
    obtain ⟨⟨value, rest'⟩, -, heq⟩ := exists_of_map_eq_ok h
    obtain ⟨rfl, -⟩ := Prod.mk.inj heq
    exact hconfig

theorem ordered_of_member {state state' : Config × List Field} {key : String}
    (hstate : state.1.Ordered) (h : member state key cs = .ok (state', rest)) :
    state'.1.Ordered := by
  rw [member] at h
  split at h
  · split at h
    · cases h
    · obtain ⟨⟨_, rest'⟩, -, heq⟩ := exists_of_map_eq_ok h
      obtain ⟨rfl, -⟩ := Prod.mk.inj heq
      exact hstate
  · split at h
    · cases h
    · split at h
      · cases h
      · obtain ⟨⟨config, rest'⟩, hread, heq⟩ := exists_of_map_eq_ok h
        obtain ⟨rfl, -⟩ := Prod.mk.inj heq
        exact ordered_of_readField hstate hread

theorem ordered_of_readFields {count : Nat} {fields : List Field} (hconfig : config.Ordered)
    (h : readFields config count fields cs = .ok (config', rest)) : config'.Ordered := by
  induction fields generalizing config count cs with
  | nil =>
    obtain ⟨rfl, -⟩ := Prod.mk.inj (Except.ok.inj h)
    exact hconfig
  | cons field fields ih =>
    rw [readFields] at h
    split at h
    · cases h
    · cases h
    · split at h
      · cases h
      · next hread => exact ih (ordered_of_readField hconfig hread) h

theorem ordered_default : ({} : Config).Ordered :=
  fun _ h => nomatch h

theorem ordered_of_read (h : read cs = .ok (config, rest)) : config.Ordered := by
  rw [read] at h
  split at h
  · cases h
  · split at h
    · obtain ⟨⟨state, rest'⟩, hread, heq⟩ := exists_of_map_eq_ok h
      obtain ⟨rfl, -⟩ := Prod.mk.inj heq
      exact Reader.object_keeps (P := fun state => state.1.Ordered)
        (fun _ _ _ _ _ => ordered_of_member) ordered_default hread
    · split at h
      · split at h
        · cases h
        · next hread =>
          obtain ⟨⟨_, rest'⟩, -, heq⟩ := exists_of_map_eq_ok h
          obtain ⟨rfl, -⟩ := Prod.mk.inj heq
          exact ordered_of_readFields ordered_default hread
      · cases h

end Config

/-! ### Tables -/

mutual

theorem Token.ordered_of_ofToml? : ∀ {v : Toml.Value} {token : Token},
    Token.ofToml? v = some token → token.Ordered
  | .text s, token, h => by
    obtain rfl := Option.some.inj h
    trivial
  | .table es, token, h => by
    obtain ⟨tree, htree, rfl⟩ := Option.map_eq_some_iff.mp h
    exact TokenTree.ordered_of_ofToml? Token.ordered_group_nil htree

theorem TokenTree.ordered_of_ofToml? : ∀ {es : List (String × Toml.Value)}
    {tree tree' : TokenTree}, (Token.group tree).Ordered →
      TokenTree.ofToml? tree es = some tree' → (Token.group tree').Ordered
  | [], tree, tree', htree, h => by
    obtain rfl := Option.some.inj h
    exact htree
  | (key, v) :: rest, tree, tree', htree, h => by
    rw [TokenTree.ofToml?] at h
    cases hv : Token.ofToml? v with
    | none => simp [hv] at h
    | some token =>
      rw [hv] at h
      exact TokenTree.ordered_of_ofToml? (htree.insertSorted (Token.ordered_of_ofToml? hv)) h

end

namespace Config

theorem ordered_of_ofTable? {es : List (String × Toml.Value)} {config : Config}
    (h : ofTable? es = some config) : config.Ordered := by
  simp only [ofTable?, bind, Option.bind_eq_some_iff, pure, Option.some.injEq] at h
  obtain ⟨_, -, _, -, _, -, tokens, htokens, _, -, _, -, _, -, rfl⟩ := h
  intro tree htree
  unfold field? at htokens
  split at htokens
  · obtain rfl := Option.some.inj htokens
    cases htree
  · next v _ =>
    obtain ⟨tree', hv, rfl⟩ := Option.map_eq_some_iff.mp htokens
    obtain rfl := Option.some.inj htree
    -- Only a table stands for a token tree.
    cases v with
    | table es => exact TokenTree.ordered_of_ofToml? Token.ordered_group_nil hv
    | _ => cases hv

/-- The token tree of a configuration that is read is sorted at every level. -/
theorem ordered_of_ofDocument {source filename : String} {config : Config}
    (h : ofDocument source filename = .ok config) : config.Ordered := by
  rw [ofDocument] at h
  split at h
  · cases hjson : ofJson source with
    | error complaint => rw [hjson] at h; cases h
    | ok config' =>
      rw [hjson] at h
      obtain rfl := Except.ok.inj h
      obtain ⟨rest, hread⟩ := Reader.exists_of_document_eq_ok hjson
      exact ordered_of_read hread
  · split at h
    · split at h
      · next htoml =>
        obtain rfl := Except.ok.inj h
        obtain ⟨v, -, htable⟩ := Option.bind_eq_some_iff.mp htoml
        exact ordered_of_ofTable? htable
      · cases h
    · cases h

end Config

end StyleTree
