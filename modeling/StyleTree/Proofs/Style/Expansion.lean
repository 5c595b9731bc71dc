import StyleTree.Style.Expansion

/-!
# What expansion keeps

Expansion writes the results of all entries into one mapping, and different entries can write to one
key: two scopes whose keys have one alias text, or a scope and a declaration whose property has the
scope's text for its name. Of these the last entry counts, and what the others wrote is lost, a
whole scope with its contents too. Nothing else is lost.

## Main definitions

* `Sheet.Writes` — an entry writes to a key
* `Style.expanded` — what it writes there
* `Sheet.scopeAt?`, `Sheet.KeptAt` — the scope at a path, and the scopes that no later entry
  overwrites on any level

## Main results

* `exists_writes_of_mem_expand` — the entries of an expanded tree come from those of its source
* `get?_expand_of_last_write` — the last entry that writes to a key decides what is there
* `scopeAt?_expand` — a scope that is not overwritten is found, expanded, at its aliased path
-/

namespace StyleTree

variable {properties : PropertyAliases} {keys : KeyAliases}

/-- The entry writes to the key: it declares the property, or its scope has the key for its text. -/
def Sheet.Writes (properties : PropertyAliases) (keys : KeyAliases) (key : String) :
    String × Style → Prop
  | (k, .scalar _) => key ∈ properties.targets k
  | (k, .scope _) => keys.resolve k = key

instance (properties : PropertyAliases) (keys : KeyAliases) (key : String) :
    (entry : String × Style) → Decidable (Sheet.Writes properties keys key entry)
  | (k, .scalar _) => inferInstanceAs (Decidable (key ∈ properties.targets k))
  | (k, .scope _) => inferInstanceAs (Decidable (keys.resolve k = key))

/-- What an entry with this value writes, wherever it does. -/
def Style.expanded (properties : PropertyAliases) (keys : KeyAliases) : Style → Style
  | .scalar v => .scalar v
  | .scope es => .scope (Sheet.expand properties keys es)

namespace Sheet

theorem contributions_append (es fs : Sheet) :
    contributions properties keys (es ++ fs) =
      contributions properties keys es ++ contributions properties keys fs := by
  induction es with
  | nil => simp [contributions]
  | cons e es ih =>
    obtain ⟨k, s⟩ := e
    simp [contributions, ih]

theorem eq_expanded_of_mem_contributions {k : String} {s : Style} {e : String × Style}
    (h : e ∈ s.contributions properties keys k) : e.2 = s.expanded properties keys := by
  cases s with
  | scalar v =>
    obtain ⟨target, -, rfl⟩ := List.mem_map.mp h
    rfl
  | scope es =>
    obtain rfl := List.mem_singleton.mp h
    rfl

theorem writes_iff_mem_keys {key k : String} {s : Style} :
    Writes properties keys key (k, s) ↔ key ∈ Entries.keys (s.contributions properties keys k) := by
  cases s with
  | scalar v => simp [Writes, Entries.keys, Style.contributions, Function.comp_def]
  | scope es => simp [Writes, Entries.keys, Style.contributions, eq_comm]

theorem mem_keys_contributions {key : String} {es : Sheet} :
    key ∈ Entries.keys (contributions properties keys es) ↔
      ∃ entry ∈ es, Writes properties keys key entry := by
  induction es with
  | nil => simp [contributions, Entries.keys]
  | cons e es ih =>
    obtain ⟨k, s⟩ := e
    have hkeys : Entries.keys (contributions properties keys ((k, s) :: es)) =
        Entries.keys (s.contributions properties keys k) ++
          Entries.keys (contributions properties keys es) := by
      simp [contributions, Entries.keys]
    rw [hkeys, List.mem_append, ← writes_iff_mem_keys, ih]
    simp

/-- Every entry of an expanded tree is what an entry of the source writes to its key. -/
theorem exists_writes_of_mem_expand {es : Sheet} {e : String × Style}
    (h : e ∈ es.expand properties keys) :
    ∃ entry ∈ es, Writes properties keys e.1 entry ∧ e.2 = entry.2.expanded properties keys := by
  have hwritten : e ∈ contributions properties keys es := Entries.mem_of_mem_ofList h
  clear h
  induction es with
  | nil => exact absurd hwritten List.not_mem_nil
  | cons entry rest ih =>
    obtain ⟨k, s⟩ := entry
    rw [contributions, List.mem_append] at hwritten
    rcases hwritten with hhead | hrest
    · exact ⟨(k, s), List.mem_cons_self, writes_iff_mem_keys.mpr (List.mem_map_of_mem hhead),
        eq_expanded_of_mem_contributions hhead⟩
    · obtain ⟨entry, hentry, hwrites⟩ := ih hrest
      exact ⟨entry, List.mem_cons_of_mem _ hentry, hwrites⟩

/-- A declaration of an expanded tree is one of the source, at a property that its key stands
for. -/
theorem exists_of_scalar_mem_expand {es : Sheet} {key : String} {v : Scalar}
    (h : (key, .scalar v) ∈ es.expand properties keys) :
    ∃ k, (k, .scalar v) ∈ es ∧ key ∈ properties.targets k := by
  obtain ⟨⟨k, s⟩, hentry, hwrites, hvalue⟩ := exists_writes_of_mem_expand h
  cases s with
  | scalar w =>
    obtain rfl : v = w := Style.scalar.inj hvalue
    exact ⟨k, hentry, hwrites⟩
  | scope source => cases hvalue

/-- A scope of an expanded tree is one of the source, expanded and under the text of its key. -/
theorem exists_of_scope_mem_expand {es inner : Sheet} {key : String}
    (h : (key, .scope inner) ∈ es.expand properties keys) :
    ∃ (k : String) (source : Sheet), (k, .scope source) ∈ es ∧ keys.resolve k = key ∧
      inner = source.expand properties keys := by
  obtain ⟨⟨k, s⟩, hentry, hwrites, hvalue⟩ := exists_writes_of_mem_expand h
  cases s with
  | scalar w => cases hvalue
  | scope source => exact ⟨k, source, hentry, hwrites, Style.scope.inj hvalue⟩

/-! ### The last entry that writes to a key -/

/-- What an entry writes to a key is the same wherever it stands among its writes. -/
theorem get?_reverse_contributions {key k : String} {s : Style}
    (h : Writes properties keys key (k, s)) :
    Entries.get? key (s.contributions properties keys k).reverse =
      some (s.expanded properties keys) := by
  have hmem : key ∈ Entries.keys (s.contributions properties keys k).reverse := by
    simpa [Entries.keys] using writes_iff_mem_keys.mp h
  obtain ⟨v, hv⟩ := Option.isSome_iff_exists.mp (Entries.get?_isSome_iff.mpr hmem)
  have hwritten := List.mem_reverse.mp (Entries.mem_of_get?_eq_some hv)
  rw [hv, ← eq_expanded_of_mem_contributions hwritten]

/-- The last entry that writes to a key decides what is there. -/
theorem get?_expand_of_last_write {key k : String} {s : Style} {before after : Sheet}
    (h : Writes properties keys key (k, s))
    (hafter : ∀ entry ∈ after, ¬ Writes properties keys key entry) :
    Entries.get? key (expand properties keys (before ++ (k, s) :: after)) =
      some (s.expanded properties keys) := by
  -- The last write is found first, and nothing behind the entry writes to the key.
  have hnone : Entries.get? key (contributions properties keys after).reverse = none := by
    rw [Entries.get?_eq_none_iff, Entries.keys, List.map_reverse, List.mem_reverse]
    intro hmem
    obtain ⟨entry, hentry, hwrites⟩ := mem_keys_contributions.mp hmem
    exact hafter entry hentry hwrites
  rw [expand, Entries.get?_ofList, contributions_append, contributions, List.reverse_append,
    List.reverse_append, Entries.get?_append, Entries.get?_append, hnone,
    get?_reverse_contributions h, Option.none_or, Option.some_or]

/-! ### Scopes that are not overwritten -/

/-- The scope at a path of keys. -/
def scopeAt? : List String → Sheet → Option Sheet
  | [], es => some es
  | k :: path, es =>
    match Entries.get? k es with
    | some (.scope inner) => scopeAt? path inner
    | _ => none

/-- A scope of a tree with the keys on the way to it, such that on no level a later entry writes to
the key that the scope on the way gets. -/
inductive KeptAt (properties : PropertyAliases) (keys : KeyAliases) :
    List String → Sheet → Sheet → Prop where
  | here (es : Sheet) : KeptAt properties keys [] es es
  | inside {before after : Sheet} {k : String} {es inner : Sheet} {path : List String}
    (hafter : ∀ entry ∈ after, ¬ Writes properties keys (keys.resolve k) entry)
    (hinner : KeptAt properties keys path es inner) :
    KeptAt properties keys (k :: path) (before ++ (k, .scope es) :: after) inner

/-- A scope that is not overwritten on any level is found, expanded, at its aliased path. -/
theorem scopeAt?_expand {path : List String} {es inner : Sheet}
    (h : KeptAt properties keys path es inner) :
    scopeAt? (path.map keys.resolve) (es.expand properties keys) =
      some (inner.expand properties keys) := by
  induction h with
  | here es => rfl
  | @inside before after k es inner path hafter hinner ih =>
    have hscope : Entries.get? (keys.resolve k)
        (expand properties keys (before ++ (k, .scope es) :: after)) =
          some (.scope (expand properties keys es)) :=
      get?_expand_of_last_write rfl hafter
    rw [List.map_cons, scopeAt?, hscope]
    exact ih

/-- What becomes of a scope: unless a later entry of the same tree writes to the key that the scope
gets, that key holds the expanded scope; otherwise it holds what the last such entry writes. So a
scope that is not overwritten on any level stands, expanded, at its aliased path. -/
theorem expand_scope_kept_or_overwritten (properties : PropertyAliases) (keys : KeyAliases) :
    (∀ (k : String) (es before after : Sheet),
      (∀ entry ∈ after, ¬ Writes properties keys (keys.resolve k) entry) →
      Entries.get? (keys.resolve k) (expand properties keys (before ++ (k, .scope es) :: after)) =
        some (.scope (expand properties keys es))) ∧
    (∀ (k k' : String) (es : Sheet) (s : Style) (before between after : Sheet),
      Writes properties keys (keys.resolve k) (k', s) →
      (∀ entry ∈ after, ¬ Writes properties keys (keys.resolve k) entry) →
      Entries.get? (keys.resolve k)
        (expand properties keys (before ++ (k, .scope es) :: between ++ (k', s) :: after)) =
          some (s.expanded properties keys)) ∧
    ∀ (path : List String) (es inner : Sheet), KeptAt properties keys path es inner →
      scopeAt? (path.map keys.resolve) (es.expand properties keys) =
        some (inner.expand properties keys) := by
  refine ⟨?_, ?_, fun path es inner h => scopeAt?_expand h⟩
  · intro k es before after hafter
    exact get?_expand_of_last_write rfl hafter
  · intro k k' es s before between after hwrites hafter
    exact get?_expand_of_last_write hwrites hafter

/-- The scope of a tablet alias is kept, two levels down, in front of an entry that writes to
another key; behind it a scope with its text for a key takes its place. -/
theorem expand_scope_kept_tablet :
    let keys : KeyAliases := Table.ofList [("@tablet", "@media (min-width: 768px)")]
    let tablet : Sheet := [("p", .scalar (.text "1px"))]
    let after : Sheet := [("m", .scalar (.text "0"))]
    let written : Style := .scope after
    (∀ entry ∈ after, ¬ Writes .defaults keys (keys.resolve "@tablet") entry) ∧
      Entries.get? (keys.resolve "@tablet")
        (expand .defaults keys (("@tablet", .scope tablet) :: after)) =
          some (.scope [("padding", .scalar (.text "1px"))]) ∧
      Writes .defaults keys (keys.resolve "@tablet") ("@media (min-width: 768px)", written) ∧
      Entries.get? (keys.resolve "@tablet")
        (expand .defaults keys
          (("@tablet", .scope tablet) :: ("@media (min-width: 768px)", written) :: after)) =
            some (.scope [("margin", .scalar (.text "0"))]) ∧
      KeptAt .defaults keys ["span", "@tablet"]
        [("span", .scope (("@tablet", .scope tablet) :: after))] tablet ∧
      scopeAt? ["span", "@media (min-width: 768px)"]
        (expand .defaults keys [("span", .scope (("@tablet", .scope tablet) :: after))]) =
          some [("padding", .scalar (.text "1px"))] := by
  intro keys tablet after written
  have hafter : ∀ entry ∈ after, ¬ Writes .defaults keys (keys.resolve "@tablet") entry := by
    decide
  have hwritten : Writes .defaults keys (keys.resolve "@tablet")
      ("@media (min-width: 768px)", written) := by decide
  have hinner : KeptAt .defaults keys ["@tablet"] (("@tablet", .scope tablet) :: after) tablet :=
    @KeptAt.inside _ _ [] after "@tablet" tablet tablet [] hafter (.here tablet)
  have hkept : KeptAt .defaults keys ["span", "@tablet"]
      [("span", .scope (("@tablet", .scope tablet) :: after))] tablet :=
    @KeptAt.inside _ _ [] [] "span" _ tablet ["@tablet"] (by simp) hinner
  obtain ⟨hscope, hoverwritten, hpath⟩ := expand_scope_kept_or_overwritten .defaults keys
  refine ⟨hafter, hscope "@tablet" tablet [] after hafter, hwritten, ?_, hkept, ?_⟩
  · exact hoverwritten "@tablet" "@media (min-width: 768px)" tablet written [] [] after hwritten
      hafter
  · exact hpath ["span", "@tablet"] _ tablet hkept

/-- Two scopes with one alias text: nothing of the first one is left. -/
theorem expand_scope_overwritten :
    let keys : KeyAliases := Table.ofList [("@tablet", "@media print")]
    let lost : Sheet := [("color", .scalar (.text "red"))]
    let es : Sheet := [("@tablet", .scope lost),
      ("@media print", .scope [("margin", .scalar (.text "0"))])]
    ¬ ∃ inner, Entries.get? (keys.resolve "@tablet") (es.expand .empty keys) = some (.scope inner) ∧
      ∀ e ∈ lost.expand .empty keys, e ∈ inner := by
  rintro keys lost es ⟨inner, hinner, hall⟩
  have hheld : Entries.get? (keys.resolve "@tablet") (es.expand .empty keys) =
      some (.scope [("margin", .scalar (.text "0"))]) := rfl
  rw [hheld] at hinner
  obtain rfl := Style.scope.inj (Option.some.inj hinner)
  have hcolor := hall ("color", .scalar (.text "red")) (List.mem_singleton.mpr rfl)
  simp at hcolor

end Sheet

end StyleTree
