import StyleTree.Token.Reference

/-!
# What an insertion changes

A value is inserted at a path, and the path may lead through missing segments, through groups and
through values. Afterwards the value stands at the path, with nothing below it and with groups above
it, and everything beside the path is what it was. So two insertions can be exchanged unless one of
their paths leads through the other.

## Main results

* `Token.at?_write_append`, `Token.at?_write_beside` — what stands above and beside a path
  after a write there
* `Token.write_comm` — writes beside each other can be exchanged
* `TokenTree.insert_effect` — the full effect of an insertion
-/

namespace StyleTree

variable {segment text : String} {path target : List String} {token : Token} {tree : TokenTree}

/-! ### Writes into sorted entries -/

namespace Entries

variable {α : Type} {k k' : String} {v v' : α} {es : Entries α}

/-- A second write to a key takes the place of the first one. -/
theorem insertSorted_insertSorted :
    insertSorted k v (insertSorted k v' es) = insertSorted k v es := by
  induction es with
  | nil => simp [insertSorted]
  | cons e rest ih => grind [insertSorted]

/-- Writes to different keys can be exchanged. -/
theorem insertSorted_comm (h : k ≠ k') :
    insertSorted k v (insertSorted k' v' es) = insertSorted k' v' (insertSorted k v es) := by
  induction es with
  | nil => grind [insertSorted]
  | cons e rest ih => grind [insertSorted]

end Entries

namespace Token

@[simp] theorem write_nil : token.write text [] = .value text := rfl

theorem write_cons :
    token.write text (segment :: path) =
      .group (Entries.insertSorted segment
        (((Entries.get? segment token.entries).getD (.group [])).write text path)
        token.entries) := rfl

theorem at?_value_cons {v : String} : (value v).at? (segment :: path) = none := rfl

/-- Below a value nothing stands. -/
theorem at?_eq_none_of_value {v : String} (hleads : path <+: target) (hne : path ≠ target)
    (h : token.at? path = some (.value v)) : token.at? target = none := by
  obtain ⟨rest, rfl⟩ := hleads
  cases rest with
  | nil => exact absurd (List.append_nil path).symm hne
  | cons segment rest => rw [at?_append, h, Option.bind_some, at?_value_cons]

/-! ### What stands at a path after a write -/

/-- Above the end of a path a write is a write at the rest of the path, into what stands there or
into a new group. -/
theorem at?_write_append {rest : List String} :
    (token.write text (path ++ rest)).at? path =
      some (((token.at? path).getD (.group [])).write text rest) := by
  induction path generalizing token with
  | nil => rfl
  | cons segment path ih =>
    rw [List.cons_append, write_cons, at?, entries, Entries.get?_insertSorted, if_pos rfl,
      Option.bind_some, ih, at?]
    cases Entries.get? segment token.entries with
    | some child => rfl
    | none =>
      -- The new group is empty, so below it a new group is written to as well.
      cases path <;> rfl

@[simp] theorem at?_write_self : (token.write text path).at? path = some (.value text) := by
  have h : (token.write text (path ++ [])).at? path = _ := at?_write_append
  rwa [List.append_nil, write_nil] at h

/-- Below the end of a path nothing is left by a write. -/
theorem at?_write_below (h : path <+: target) (hne : target ≠ path) :
    (token.write text path).at? target = none :=
  at?_eq_none_of_value h hne.symm at?_write_self

/-- Above the end of a path a write leaves groups, whatever was there. -/
theorem exists_at?_write_above (h : target <+: path) (hne : target ≠ path) :
    ∃ inner, (token.write text path).at? target = some (.group inner) := by
  obtain ⟨rest, rfl⟩ := h
  cases rest with
  | nil => exact absurd (List.append_nil target).symm hne
  | cons segment rest =>
    rw [at?_write_append, write_cons]
    exact ⟨_, rfl⟩

/-- Where neither path leads through the other, a write changes nothing. -/
theorem at?_write_beside (hbelow : ¬ path <+: target) (habove : ¬ target <+: path) :
    (token.write text path).at? target = token.at? target := by
  induction path generalizing token target with
  | nil => exact absurd List.nil_prefix hbelow
  | cons segment path ih =>
    cases target with
    | nil => exact absurd List.nil_prefix habove
    | cons segment' target =>
      rw [write_cons, at?, entries, Entries.get?_insertSorted, at?]
      by_cases heq : segment = segment'
      · subst heq
        rw [List.prefix_cons_inj] at hbelow habove
        rw [if_pos rfl, Option.bind_some, ih hbelow habove]
        cases Entries.get? segment token.entries with
        | some child => rfl
        | none =>
          -- The write goes into a new group, in which nothing stands beside it.
          cases target with
          | nil => exact absurd List.nil_prefix habove
          | cons _ _ => rfl
      · rw [if_neg heq]

/-- Writes beside each other can be exchanged. -/
theorem write_comm {other : String} (hbelow : ¬ path <+: target) (habove : ¬ target <+: path) :
    (token.write text path).write other target = (token.write other target).write text path := by
  induction path generalizing token target with
  | nil => exact absurd List.nil_prefix hbelow
  | cons segment path ih =>
    cases target with
    | nil => exact absurd List.nil_prefix habove
    | cons segment' target =>
      simp only [write_cons, entries, Entries.get?_insertSorted]
      by_cases heq : segment = segment'
      · -- Both writes go into the same entry, so they are exchanged there.
        subst heq
        rw [List.prefix_cons_inj] at hbelow habove
        simp only [if_pos, Option.getD_some, Entries.insertSorted_insertSorted,
          ih hbelow habove]
      · rw [if_neg heq, if_neg (Ne.symm heq), Entries.insertSorted_comm (Ne.symm heq)]

end Token

namespace TokenTree

/-- The root is a group before and after an insertion. -/
theorem group_insert (dotted : String) :
    Token.group (tree.insert dotted text) =
      (Token.group tree).write text (Token.segments dotted) := by
  rw [insert]
  cases h : Token.segments dotted with
  | nil => exact absurd h (Token.segments_ne_nil dotted)
  | cons segment path => rfl

theorem resolve?_eq_of_lookup_eq {other : TokenTree} {groups : TokenGroups}
    {property reference : String}
    (h : ∀ dotted, groups.path? property reference = some dotted →
      other.lookup dotted = tree.lookup dotted) :
    other.resolve? groups property reference = tree.resolve? groups property reference := by
  rw [resolve?, resolve?]
  cases hpath : groups.path? property reference with
  | none => rfl
  | some dotted => rw [Option.bind_some, Option.bind_some, h dotted hpath]

/-- The full effect of an insertion, with paths taken as their segments. At the path stands the
value; below it nothing stands; above it stand groups, whatever was there before; and at every other
path stands what stood there. So every reference that leads to the path, from whatever property, has
the value, and no other reference is given another value unless its path is part of the path of the
insertion or goes on from it. -/
theorem insert_effect (tree : TokenTree) (dotted text : String) :
    (∀ dotted' : String,
      let path := Token.segments dotted
      let target := Token.segments dotted'
      let found := (tree.insert dotted text).lookup dotted'
      (target = path → found = some (.value text)) ∧
      (path <+: target → target ≠ path → found = none) ∧
      (target <+: path → target ≠ path → ∃ inner, found = some (.group inner)) ∧
      (¬ path <+: target → ¬ target <+: path → found = tree.lookup dotted')) ∧
    ∀ (groups : TokenGroups) (property reference : String),
      (groups.path? property reference = some dotted →
        (tree.insert dotted text).resolve? groups property reference = some text) ∧
      ((tree.insert dotted text).resolve? groups property reference ≠
          tree.resolve? groups property reference →
        ∃ dotted', groups.path? property reference = some dotted' ∧
          (Token.segments dotted' <+: Token.segments dotted ∨
            Token.segments dotted <+: Token.segments dotted')) := by
  have hfound (dotted' : String) : (tree.insert dotted text).lookup dotted' =
      ((Token.group tree).write text (Token.segments dotted)).at? (Token.segments dotted') := by
    rw [lookup, group_insert]
  refine ⟨fun dotted' => ?_, fun groups property reference => ⟨?_, ?_⟩⟩
  · intro path target found
    have heq : found = _ := hfound dotted'
    rw [heq]
    refine ⟨fun hsame => ?_, ?_, ?_, Token.at?_write_beside⟩
    · exact (congrArg (Token.at? · _) hsame).trans Token.at?_write_self
    · exact Token.at?_write_below
    · exact Token.exists_at?_write_above
  · intro hpath
    rw [resolve?, hpath, Option.bind_some, hfound, Token.at?_write_self]
    rfl
  · intro hchanged
    refine Classical.byContradiction fun hbeside => hchanged ?_
    refine resolve?_eq_of_lookup_eq fun dotted' hpath => ?_
    rw [hfound]
    exact Token.at?_write_beside
      (fun hleads => hbeside ⟨dotted', hpath, .inr hleads⟩)
      (fun hleads => hbeside ⟨dotted', hpath, .inl hleads⟩)

/-- A value gives way to a group where a path leads through it, and its neighbour stays. -/
theorem insert_effect_green :
    let tree := insert (insert [] "color.green" "green") "color.red" "red"
    let after := tree.insert "color.green.500" "#22c55e"
    (∃ inner, after.lookup "color.green" = some (.group inner)) ∧
      after.lookup "color.green.500.dark" = none ∧
      after.lookup "color.red" = tree.lookup "color.red" ∧
      after.resolve? TokenGroups.defaults "color" "$green.500" = some "#22c55e" := by
  intro tree after
  obtain ⟨hlookup, hresolve⟩ := insert_effect tree "color.green.500" "#22c55e"
  obtain ⟨-, -, habove, -⟩ := hlookup "color.green"
  obtain ⟨-, hbelow, -, -⟩ := hlookup "color.green.500.dark"
  obtain ⟨-, -, -, hbeside⟩ := hlookup "color.red"
  refine ⟨habove (by decide +kernel) (by decide +kernel),
    hbelow (by decide +kernel) (by decide +kernel),
    hbeside (by decide +kernel) (by decide +kernel), ?_⟩
  exact (hresolve TokenGroups.defaults "color" "$green.500").1 (by decide +kernel)

end TokenTree

end StyleTree
