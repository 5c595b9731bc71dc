import StyleTree.Proofs.Token.Reaching

/-!
# References that start in a group

A path is cut at its dots, so looking up two paths with a dot between them is looking up the second
one in the group at the first one. For a property with a token group every reference is put behind
the name of the group and a dot. So it names a token of that group: however many dots it has, and
even if it begins with one, no part of it leads out of the group again.

## Main definitions

* `Token.group?` — the tree below a token that is a group

## Main results

* `TokenTree.lookup_dot_eq_bind` — lookups compose at a dot
* `TokenTree.resolve?_eq_bind_of_group` — a grouped reference is looked up in its group
* `TokenTree.resolve?_confined` — what lies outside of the group makes no difference
-/

namespace StyleTree

/-- The tree below a token that is a group. -/
def Token.group? : Token → Option TokenTree
  | .value _ => none
  | .group entries => some entries

variable {tree other : TokenTree} {groups : TokenGroups} {property group : String}

theorem Token.group?_eq_some_iff {token : Token} {inner : TokenTree} :
    token.group? = some inner ↔ token = .group inner := by
  cases token <;> simp [group?]

theorem Token.value?_eq_some_iff {token : Token} {text : String} :
    token.value? = some text ↔ token = .value text := by
  cases token <;> simp [value?]

/-- For a property with a group a reference names the path that goes on from the group. -/
theorem TokenGroups.path?_of_group (h : groups.get? property = some group) (rest : String) :
    groups.path? property ("$" ++ rest) = some (group ++ "." ++ rest) := by
  have hchars : ("$" ++ rest).toList = '$' :: rest.toList := by simp
  simp [path?, hchars, Scalar.sigil, h]

/-- Only what starts with the dollar sign is a reference. -/
theorem TokenGroups.exists_of_path?_eq_some {reference dotted : String}
    (h : groups.path? property reference = some dotted) : ∃ rest, reference = "$" ++ rest := by
  rw [path?] at h
  cases hchars : reference.toList with
  | nil => simp [hchars] at h
  | cons c cs =>
    by_cases hc : c = Scalar.sigil
    · refine ⟨String.ofList cs, ?_⟩
      rw [← String.toList_inj, hchars, hc]
      simp [Scalar.sigil]
    · simp [hchars, hc] at h

namespace TokenTree

/-- A path without a dot is a segment, and is looked up among the entries. -/
theorem lookup_of_dotless {segment : String} (h : Token.Dotless segment) :
    tree.lookup segment = Entries.get? segment tree := by
  rw [lookup, Token.segments_of_not_mem h, Token.at?, Token.entries]
  cases Entries.get? segment tree <;> rfl

/-- Nothing is found in a tree without entries. -/
theorem lookup_nil (path : String) : lookup [] path = none := by
  rw [lookup]
  cases h : Token.segments path with
  | nil => exact absurd h (Token.segments_ne_nil path)
  | cons segment rest => rfl

/-- Lookups compose at a dot: the second path is looked up in the group at the first one. -/
theorem lookup_dot_eq_bind (tree : TokenTree) (p q : String) :
    tree.lookup (p ++ "." ++ q) =
      ((tree.lookup p).bind Token.group?).bind fun inner => inner.lookup q := by
  rw [lookup_dot, Option.bind_assoc]
  -- A value has no entries, so nothing is found below it.
  refine Option.bind_congr fun token _ => ?_
  cases token with
  | value text => exact lookup_nil q
  | group inner => rfl

/-- For a property with a group a reference is looked up in the group. -/
theorem resolve?_eq_bind_of_group (h : groups.get? property = some group) (rest : String) :
    tree.resolve? groups property ("$" ++ rest) =
      ((tree.lookup group).bind Token.group?).bind fun inner =>
        (inner.lookup rest).bind Token.value? := by
  rw [resolve?, TokenGroups.path?_of_group h, Option.bind_some, lookup_dot_eq_bind,
    Option.bind_assoc]

/-- For a property with a group the value of a reference is one of the group's own. -/
theorem resolve?_eq_some_iff_of_group (h : groups.get? property = some group)
    {reference text : String} :
    tree.resolve? groups property reference = some text ↔
      ∃ (rest : String) (inner : TokenTree), reference = "$" ++ rest ∧
        tree.lookup group = some (.group inner) ∧ inner.lookup rest = some (.value text) := by
  constructor
  · intro hvalue
    -- Only a reference has a value, and its path goes on from the group.
    obtain ⟨dotted, hpath, -⟩ := Option.bind_eq_some_iff.mp hvalue
    obtain ⟨rest, rfl⟩ := TokenGroups.exists_of_path?_eq_some hpath
    rw [resolve?_eq_bind_of_group h] at hvalue
    obtain ⟨inner, hgroup, hinner⟩ := Option.bind_eq_some_iff.mp hvalue
    obtain ⟨found, hfound, hfoundGroup⟩ := Option.bind_eq_some_iff.mp hgroup
    obtain ⟨token, htoken, htext⟩ := Option.bind_eq_some_iff.mp hinner
    obtain rfl := Token.group?_eq_some_iff.mp hfoundGroup
    obtain rfl := Token.value?_eq_some_iff.mp htext
    exact ⟨rest, inner, rfl, hfound, htoken⟩
  · rintro ⟨rest, inner, rfl, hgroup, hinner⟩
    rw [resolve?_eq_bind_of_group h, hgroup, Option.bind_some, Token.group?, Option.bind_some,
      hinner, Option.bind_some, Token.value?]

/-- Trees with the same token at the group give a grouped reference the same value. -/
theorem resolve?_eq_of_lookup_group_eq (h : groups.get? property = some group)
    (hsame : tree.lookup group = other.lookup group) (reference : String) :
    tree.resolve? groups property reference = other.resolve? groups property reference := by
  ext text
  rw [resolve?_eq_some_iff_of_group h, resolve?_eq_some_iff_of_group h, hsame]

/-- Lookups go dot by dot, so a reference cannot leave the group it starts in. A segment is looked
up among the entries of a tree. A path with a dot leads on from the group that its first part leads
to, as a lookup of its second part there; if its first part leads to no group, it leads nowhere.
This is for any two parts, empty or with dots of their own. For a property with a token group a
reference therefore has the values of that group and no others, and two trees with the same token at
the group, whatever else they hold, give every reference the same value. -/
theorem resolve?_confined :
    (∀ (tree : TokenTree) (segment : String), Token.Dotless segment →
      tree.lookup segment = Entries.get? segment tree) ∧
    (∀ (tree : TokenTree) (p q : String),
      (∀ inner : TokenTree, tree.lookup p = some (.group inner) →
        tree.lookup (p ++ "." ++ q) = inner.lookup q) ∧
      ((∀ inner, tree.lookup p ≠ some (.group inner)) → tree.lookup (p ++ "." ++ q) = none)) ∧
    ∀ (groups : TokenGroups) (property group : String), groups.get? property = some group →
      (∀ (tree : TokenTree) (reference text : String),
        tree.resolve? groups property reference = some text ↔
          ∃ (rest : String) (inner : TokenTree), reference = "$" ++ rest ∧
            tree.lookup group = some (.group inner) ∧ inner.lookup rest = some (.value text)) ∧
      ∀ tree other : TokenTree, tree.lookup group = other.lookup group → ∀ reference,
        tree.resolve? groups property reference = other.resolve? groups property reference := by
  refine ⟨fun tree segment => lookup_of_dotless, fun tree p q => ⟨?_, ?_⟩,
    fun groups property group hgroup => ⟨?_, ?_⟩⟩
  · intro inner hinner
    rw [lookup_dot_eq_bind, hinner, Option.bind_some, Token.group?, Option.bind_some]
  · intro hnone
    rw [lookup_dot_eq_bind, Option.bind_eq_none_iff]
    intro inner hinner
    obtain ⟨token, htoken, hgroup⟩ := Option.bind_eq_some_iff.mp hinner
    exact absurd (Token.group?_eq_some_iff.mp hgroup ▸ htoken) (hnone inner)
  · exact fun tree reference text => resolve?_eq_some_iff_of_group hgroup
  · exact fun tree other hsame reference => resolve?_eq_of_lookup_group_eq hgroup hsame reference

/-- A margin reads the spacing tokens only: not the colours, by whatever dots, and not the tokens
that another tree has beside the same group. -/
theorem resolve?_confined_spacing :
    let tree := insert (insert [] "spacing.in.small" "8px") "color.red" "red"
    let other := insert (insert [] "color" "blue") "spacing.in.small" "8px"
    let inner : TokenTree := [("in", .group [("small", .value "8px")])]
    let groups := TokenGroups.defaults
    Token.Dotless "spacing" ∧ tree.lookup "spacing" = some (.group inner) ∧
      tree.lookup "spacing.in.small" = some (.value "8px") ∧
      (∀ es, tree.lookup "color.red" ≠ some (.group es)) ∧ tree.lookup "color.red..500" = none ∧
      groups.get? "margin" = some "spacing" ∧
      tree.resolve? groups "margin" "$in.small" = some "8px" ∧
      tree.lookup "spacing" = other.lookup "spacing" ∧
      tree.resolve? groups "margin" "$..color.red" =
        other.resolve? groups "margin" "$..color.red" := by
  intro tree other inner groups
  have hdotless : Token.Dotless "spacing" := by decide
  have hspacing : Entries.get? "spacing" tree = some (.group inner) := rfl
  have hred : tree.lookup "color.red" = some (.value "red") := rfl
  have hnone (es : TokenTree) : tree.lookup "color.red" ≠ some (.group es) := by
    rw [hred]
    exact nofun
  have hgroup : groups.get? "margin" = some "spacing" := by decide +kernel
  have hsame : tree.lookup "spacing" = other.lookup "spacing" := rfl
  obtain ⟨hsegment, hdot, hreferences⟩ := resolve?_confined
  obtain ⟨hvalue, hconfined⟩ := hreferences groups "margin" "spacing" hgroup
  have hlookup : tree.lookup "spacing" = some (.group inner) :=
    (hsegment tree "spacing" hdotless).trans hspacing
  refine ⟨hdotless, hlookup, ?_, hnone, ?_, hgroup, ?_, hsame, ?_⟩
  · exact (hdot tree "spacing" "in.small").1 inner hlookup
  · exact (hdot tree "color.red" ".500").2 hnone
  · exact (hvalue tree "$in.small" "8px").mpr ⟨"in.small", inner, rfl, hlookup, rfl⟩
  · exact hconfined tree other hsame "$..color.red"

end TokenTree

end StyleTree
