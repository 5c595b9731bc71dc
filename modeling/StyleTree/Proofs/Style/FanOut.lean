import StyleTree.Proofs.Style.NormalForm

/-!
# What an expanded tree holds

An entry of a style tree fans out to the keys that it writes to: a declaration to the properties
that its key stands for, in the order in which the alias lists them, and a scope to the one text of
its key. All entries write into one mapping. A key stands where it was first written, its value is
the one that was written last, and the two can come from different entries.

## Main definitions

* `Sheet.written` — the keys that an entry writes to, in order

## Main results

* `keys_expand` — the keys of an expanded tree, in order
* `expand_fanOut` — its keys, its values and its order together
-/

namespace StyleTree.Sheet

variable {properties : PropertyAliases} {keys : KeyAliases} {key : String}

/-- The keys that an entry writes to, in order: the properties that its key stands for, or the text
of a scope's key. -/
def written (properties : PropertyAliases) (keys : KeyAliases) : String × Style → List String
  | (k, .scalar _) => properties.targets k
  | (k, .scope _) => [keys.resolve k]

theorem keys_contributions (es : Sheet) :
    Entries.keys (contributions properties keys es) = es.flatMap (written properties keys) := by
  induction es with
  | nil => rfl
  | cons e rest ih =>
    obtain ⟨k, s⟩ := e
    have hentry : Entries.keys (s.contributions properties keys k) =
        written properties keys (k, s) := by
      cases s with
      | scalar v => simp [Entries.keys, Style.contributions, written, Function.comp_def]
      | scope inner => rfl
    rw [contributions, List.flatMap_cons, ← ih, ← hentry]
    exact List.map_append

/-- The keys of an expanded tree stand in the order in which they are first written. -/
theorem keys_expand (es : Sheet) :
    Entries.keys (es.expand properties keys) =
      (es.flatMap (written properties keys)).eraseDups := by
  rw [expand, Entries.keys_ofList, keys_contributions]

theorem mem_keys_expand {es : Sheet} :
    key ∈ Entries.keys (es.expand properties keys) ↔
      ∃ entry ∈ es, Writes properties keys key entry := by
  rw [expand, Entries.keys_ofList, List.mem_eraseDups, mem_keys_contributions]

/-- What an expanded tree holds. A key is there if an entry writes to it, and its value is what the
last such entry writes: the scalar as it is, or the scope expanded. The keys stand in the order in
which they are first written, entry by entry and for a declaration in the order of its alias, and
none is repeated at any level. Declarations are only ever renamed to properties that their own key
stands for, and scopes to the text of their own key. -/
theorem expand_fanOut (properties : PropertyAliases) (keys : KeyAliases) (es : Sheet) :
    (∀ key, key ∈ Entries.keys (es.expand properties keys) ↔
      ∃ entry ∈ es, Writes properties keys key entry) ∧
    (∀ (key : String) (entry : String × Style) (before after : Sheet),
      es = before ++ entry :: after → Writes properties keys key entry →
      (∀ later ∈ after, ¬ Writes properties keys key later) →
      Entries.get? key (es.expand properties keys) =
        some (entry.2.expanded properties keys)) ∧
    Entries.keys (es.expand properties keys) =
      (es.flatMap (written properties keys)).eraseDups ∧
    DistinctKeys (es.expand properties keys) ∧
    (∀ key v, (key, .scalar v) ∈ es.expand properties keys →
      ∃ k, (k, .scalar v) ∈ es ∧ key ∈ properties.targets k) ∧
    ∀ key inner, (key, .scope inner) ∈ es.expand properties keys →
      ∃ (k : String) (source : Sheet), (k, .scope source) ∈ es ∧ keys.resolve k = key ∧
        inner = source.expand properties keys := by
  refine ⟨fun key => mem_keys_expand, ?_, keys_expand es, distinctKeys_expand es,
    fun key v => exists_of_scalar_mem_expand, fun key inner => exists_of_scope_mem_expand⟩
  rintro key ⟨k, s⟩ before after rfl hwrites hafter
  exact get?_expand_of_last_write hwrites hafter

/-- A longhand takes the first place of a shorthand in front of it, a scope gets the text of its
key, and a declaration with an aliased scope key does not. -/
theorem expand_fanOut_tablet :
    let keys : KeyAliases := Table.ofList [("@tablet", "@media print"), ("p", "@media print")]
    let tablet : Style := .scope [("m", .scalar (.text "0"))]
    let es : Sheet := [("mx", .scalar (.text "1px")), ("@tablet", tablet),
      ("p", .scalar (.text "2px")), ("marginLeft", .scalar (.text "3px"))]
    let expanded := es.expand .defaults keys
    Writes .defaults keys "marginLeft" ("marginLeft", .scalar (.text "3px")) ∧
      Entries.get? "marginLeft" expanded = some (.scalar (.text "3px")) ∧
      Entries.keys expanded = ["marginLeft", "marginRight", "@media print", "padding"] ∧
      ("padding", .scalar (.text "2px")) ∈ expanded ∧
      (∃ k, (k, .scalar (.text "2px")) ∈ es ∧ "padding" ∈ PropertyAliases.defaults.targets k) ∧
      ("@media print", .scope [("margin", .scalar (.text "0"))]) ∈ expanded ∧
      ∃ (k : String) (source : Sheet), (k, .scope source) ∈ es ∧
        keys.resolve k = "@media print" := by
  intro keys tablet es expanded
  have hexpanded : expanded = [("marginLeft", .scalar (.text "3px")),
      ("marginRight", .scalar (.text "1px")),
      ("@media print", .scope [("margin", .scalar (.text "0"))]),
      ("padding", .scalar (.text "2px"))] := rfl
  have hwrites : Writes .defaults keys "marginLeft" ("marginLeft", .scalar (.text "3px")) := by
    decide
  have hpadding : ("padding", .scalar (.text "2px")) ∈ expanded := by simp [hexpanded]
  have hprint : ("@media print", .scope [("margin", .scalar (.text "0"))]) ∈ expanded := by
    simp [hexpanded]
  obtain ⟨-, hvalue, hkeys, -, hscalar, hscope⟩ := expand_fanOut .defaults keys es
  refine ⟨hwrites, ?_, hkeys.trans (by decide), hpadding, hscalar _ _ hpadding, hprint, ?_⟩
  · exact hvalue "marginLeft" ("marginLeft", .scalar (.text "3px"))
      [("mx", .scalar (.text "1px")), ("@tablet", tablet), ("p", .scalar (.text "2px"))] [] rfl
      hwrites (by simp)
  · obtain ⟨k, source, hmem, htext, -⟩ := hscope "@media print" _ hprint
    exact ⟨k, source, hmem, htext⟩

end StyleTree.Sheet
