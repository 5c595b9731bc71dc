import StyleTree.Proofs.Style.Expansion

/-!
# Layers

Styles are layered before they are compiled: the entries of an upper tree are written over those of
a lower one. A key that both layers have keeps the place it has below, and expansion lets the last
entry that writes to a property win. So the value of an upper entry decides unless it stands, at the
place of its key below, in front of another entry that writes to the same property; then that entry
decides, be it a shorthand or a longhand of either layer.

## Main definitions

* `Entries.overlay`, `Entries.behind` — an entry below with the value from above, and what stands
  behind a key
* `Sheet.lastWriter?` — the last entry of a tree that writes to a key

## Main results

* `merge_eq` — the layers as one list
* `get?_expand` — the last writer decides what an expanded tree holds
* `get?_expand_merge` — which entry decides after layering
-/

namespace StyleTree

namespace Entries

variable {α : Type} {k : String} {v : α} {es fs : Entries α}

/-- An entry of the lower layer with the value that the upper layer has at its key, if any. -/
def overlay (fs : Entries α) (e : String × α) : String × α :=
  (e.1, (get? e.1 fs).getD e.2)

/-- The entries behind the entry of a key. -/
def behind (k : String) : Entries α → Entries α
  | [] => []
  | (k', _) :: rest => if k' = k then rest else behind k rest

/-! ### The layers as one list -/

theorem insert_of_not_mem (h : k ∉ keys es) : insert k v es = es ++ [(k, v)] := by
  induction es with
  | nil => rfl
  | cons e rest ih =>
    obtain ⟨l, w⟩ := e
    obtain ⟨hne, hrest⟩ : k ≠ l ∧ k ∉ keys rest := by simpa [keys] using h
    rw [insert, if_neg (Ne.symm hne), ih hrest, List.cons_append]

theorem overlay_of_not_mem {e : String × α} (h : e.1 ∉ keys fs) : overlay fs e = e := by
  rw [overlay, get?_eq_none_iff.mpr h, Option.getD_none]

theorem overlay_cons_of_ne {e : String × α} (h : k ≠ e.1) :
    overlay ((k, v) :: fs) e = overlay fs e := by
  rw [overlay, overlay, get?, if_neg h]

/-- Writing to a present key and laying the rest over the result is laying all of it over. -/
theorem map_overlay_insert_of_mem (hes : (keys es).Nodup) (hmem : k ∈ keys es)
    (hk : k ∉ keys fs) : (insert k v es).map (overlay fs) = es.map (overlay ((k, v) :: fs)) := by
  induction es with
  | nil => simp [keys] at hmem
  | cons e rest ih =>
    obtain ⟨l, w⟩ := e
    obtain ⟨hl, hrest⟩ : l ∉ keys rest ∧ (keys rest).Nodup := List.nodup_cons.mp hes
    rw [insert]
    by_cases hlk : l = k
    · subst hlk
      -- Behind its only entry the key does not occur again, so nothing else changes.
      have hsame : rest.map (overlay fs) = rest.map (overlay ((l, v) :: fs)) := by
        refine List.map_congr_left fun e he => (overlay_cons_of_ne ?_).symm
        exact fun heq => hl (heq ▸ List.mem_map_of_mem he)
      have hhead : overlay fs (l, v) = overlay ((l, v) :: fs) (l, w) := by
        rw [overlay_of_not_mem hk, overlay, get?, if_pos rfl, Option.getD_some]
      rw [if_pos rfl, List.map_cons, List.map_cons, hsame, hhead]
    · have hmem' : k ∈ keys rest := by
        rcases List.mem_cons.mp hmem with heq | hmem
        · exact absurd heq.symm hlk
        · exact hmem
      rw [if_neg hlk, List.map_cons, List.map_cons, ih hrest hmem',
        overlay_cons_of_ne (Ne.symm hlk)]

/-- Layering keeps the entries below at their places, with the values from above, and adds the keys
that are only above in their order. -/
theorem merge_eq (hes : (keys es).Nodup) (hfs : (keys fs).Nodup) :
    merge es fs = es.map (overlay fs) ++ fs.filter (fun e => e.1 ∉ keys es) := by
  induction fs generalizing es with
  | nil =>
    have hsame : es.map (overlay []) = es := (List.map_congr_left fun e _ => rfl).trans es.map_id
    rw [hsame]
    simp [merge]
  | cons e rest ih =>
    obtain ⟨k, v⟩ := e
    obtain ⟨hk, hrest⟩ : k ∉ keys rest ∧ (keys rest).Nodup := List.nodup_cons.mp hfs
    have hstep : merge es ((k, v) :: rest) = merge (insert k v es) rest := rfl
    rw [hstep, ih (nodup_keys_insert hes) hrest]
    by_cases hmem : k ∈ keys es
    · rw [map_overlay_insert_of_mem hes hmem hk, keys_insert_of_mem hmem,
        List.filter_cons_of_neg (by simpa using hmem)]
    · -- The new key goes to the end of the lower layer, in front of those after it above.
      have hlower : es.map (overlay rest) = es.map (overlay ((k, v) :: rest)) := by
        refine List.map_congr_left fun e he => (overlay_cons_of_ne ?_).symm
        exact fun heq => hmem (heq ▸ List.mem_map_of_mem he)
      have hupper : rest.filter (fun e => e.1 ∉ keys es ++ [k]) =
          rest.filter (fun e => e.1 ∉ keys es) := by
        refine List.filter_congr fun e he => ?_
        have hne : e.1 ≠ k := fun heq => hk (heq ▸ List.mem_map_of_mem he)
        simp [hne]
      rw [keys_insert_of_not_mem hmem, insert_of_not_mem hmem, List.map_append, hlower, hupper,
        List.map_singleton, overlay_of_not_mem hk, List.filter_cons_of_pos (by simpa using hmem),
        List.append_assoc, List.singleton_append]

/-- Without repeated keys nothing is overwritten. -/
theorem ofList_eq_self (hes : (keys es).Nodup) : ofList es = es := by
  have hnil : (keys ([] : Entries α)).Nodup := List.nodup_nil
  rw [ofList, merge_eq hnil hes, List.map_nil, List.nil_append]
  exact List.filter_eq_self.mpr fun e _ => by simp [keys]

/-! ### Behind a key -/

theorem behind_append (h : k ∉ keys es) : behind k (es ++ (k, v) :: fs) = fs := by
  induction es with
  | nil => simp [behind]
  | cons e rest ih =>
    obtain ⟨l, w⟩ := e
    obtain ⟨hne, hrest⟩ : k ≠ l ∧ k ∉ keys rest := by simpa [keys] using h
    rw [List.cons_append, behind, if_neg (Ne.symm hne), ih hrest]

theorem mem_of_mem_behind {e : String × α} (h : e ∈ behind k es) : e ∈ es := by
  induction es with
  | nil => exact h
  | cons head rest ih =>
    rw [behind] at h
    split at h
    · exact List.mem_cons_of_mem _ h
    · exact List.mem_cons_of_mem _ (ih h)

theorem ne_of_mem_behind {e : String × α} (hes : (keys es).Nodup) (h : e ∈ behind k es) :
    e.1 ≠ k := by
  induction es with
  | nil => exact absurd h List.not_mem_nil
  | cons head rest ih =>
    obtain ⟨hhead, hrest⟩ : head.1 ∉ keys rest ∧ (keys rest).Nodup := List.nodup_cons.mp hes
    rw [behind] at h
    split at h
    · next hk => exact fun heq => hhead (hk ▸ heq ▸ List.mem_map_of_mem h)
    · exact ih hrest h

/-- A present key parts the entries in front of it from those behind it. -/
theorem exists_eq_append_behind (h : get? k es = some v) :
    ∃ before, es = before ++ (k, v) :: behind k es ∧ k ∉ keys before := by
  induction es with
  | nil => simp at h
  | cons e rest ih =>
    obtain ⟨l, w⟩ := e
    rw [get?] at h
    by_cases hl : l = k
    · rw [if_pos hl] at h
      obtain rfl := Option.some.inj h
      exact ⟨[], by rw [behind, if_pos hl, hl]; rfl, by simp [keys]⟩
    · rw [if_neg hl] at h
      obtain ⟨before, hrest, hbefore⟩ := ih h
      refine ⟨(l, w) :: before, ?_, by simpa [keys, Ne.symm hl] using hbefore⟩
      rw [behind, if_neg hl, List.cons_append, ← hrest]

/-- After layering an entry of the upper layer is found at its key. -/
theorem get?_merge_of_mem (es : Entries α) (hfs : (keys fs).Nodup) (h : (k, v) ∈ fs) :
    get? k (merge es fs) = some v := by
  rw [get?_merge_of_nodup hfs, get?_of_mem hfs h, Option.some_or]

/-- Behind a key that is only in the upper layer stand entries that are behind it there. -/
theorem mem_of_mem_behind_merge {before after : Entries α} {e : String × α}
    (hes : (keys es).Nodup) (hfs : (keys (before ++ (k, v) :: after)).Nodup) (hk : k ∉ keys es)
    (h : e ∈ behind k (merge es (before ++ (k, v) :: after))) : e ∈ after := by
  have hlower : k ∉ keys (es.map (overlay (before ++ (k, v) :: after))) := by
    simpa [keys, overlay, Function.comp_def] using hk
  have hupper : k ∉ keys (before.filter fun e => e.1 ∉ keys es) := by
    have hbefore : k ∉ keys before := by
      rw [keys, List.map_append, List.nodup_append] at hfs
      intro hmem
      exact hfs.2.2 k hmem k (by simp) rfl
    intro hmem
    obtain ⟨e, he, rfl⟩ := List.mem_map.mp hmem
    exact hbefore (List.mem_map_of_mem (List.mem_filter.mp he).1)
  have hfront : k ∉ keys (es.map (overlay (before ++ (k, v) :: after)) ++
      before.filter fun e => e.1 ∉ keys es) := by
    simpa [keys] using ⟨by simpa [keys] using hlower, by simpa [keys] using hupper⟩
  rw [merge_eq hes hfs, List.filter_append, List.filter_cons_of_pos (by simpa using hk),
    ← List.append_assoc, behind_append hfront] at h
  exact (List.mem_filter.mp h).1

end Entries

namespace Sheet

variable {properties : PropertyAliases} {keys : KeyAliases} {key : String}

/-! ### The last writer -/

/-- The last entry of a tree that writes to a key. -/
def lastWriter? (properties : PropertyAliases) (keys : KeyAliases) (key : String) (es : Sheet) :
    Option (String × Style) :=
  es.reverse.find? fun entry => decide (Writes properties keys key entry)

theorem lastWriter?_eq_none_iff {es : Sheet} :
    lastWriter? properties keys key es = none ↔
      ∀ entry ∈ es, ¬ Writes properties keys key entry := by
  simp [lastWriter?]

theorem lastWriter?_eq_some_iff {es : Sheet} {e : String × Style} :
    lastWriter? properties keys key es = some e ↔
      Writes properties keys key e ∧ ∃ before after, es = before ++ e :: after ∧
        ∀ entry ∈ after, ¬ Writes properties keys key entry := by
  rw [lastWriter?, List.find?_eq_some_iff_append]
  constructor
  · rintro ⟨hwrites, after, before, heq, hafter⟩
    refine ⟨by simpa using hwrites, before.reverse, after.reverse, ?_, ?_⟩
    · rw [← List.reverse_inj, heq]
      simp
    · intro entry hentry
      simpa using hafter entry (List.mem_reverse.mp hentry)
  · rintro ⟨hwrites, before, after, rfl, hafter⟩
    refine ⟨by simpa using hwrites, after.reverse, before.reverse, by simp, ?_⟩
    intro entry hentry
    simpa using hafter entry (List.mem_reverse.mp hentry)

/-- Of an entry that writes and those behind it the last one that writes is the last writer. -/
theorem lastWriter?_append_cons {before after : Sheet} {e : String × Style}
    (h : Writes properties keys key e) :
    lastWriter? properties keys key (before ++ e :: after) =
      some ((lastWriter? properties keys key after).getD e) := by
  cases hafter : lastWriter? properties keys key after with
  | none =>
    exact lastWriter?_eq_some_iff.mpr
      ⟨h, before, after, rfl, lastWriter?_eq_none_iff.mp hafter⟩
  | some last =>
    obtain ⟨hwrites, between, rest, rfl, hrest⟩ := lastWriter?_eq_some_iff.mp hafter
    exact lastWriter?_eq_some_iff.mpr
      ⟨hwrites, before ++ e :: between, rest, by simp, hrest⟩

/-- An expanded tree holds at a key what the last writer of the key writes, if there is one. -/
theorem get?_expand (es : Sheet) :
    Entries.get? key (es.expand properties keys) =
      (lastWriter? properties keys key es).map fun e => e.2.expanded properties keys := by
  cases hlast : lastWriter? properties keys key es with
  | none =>
    have hnone := lastWriter?_eq_none_iff.mp hlast
    rw [Option.map_none, Entries.get?_eq_none_iff]
    intro hmem
    obtain ⟨e, he, rfl⟩ := List.mem_map.mp hmem
    obtain ⟨entry, hentry, hwrites⟩ := mem_keys_contributions.mp
      (List.mem_map_of_mem (Entries.mem_of_mem_ofList he))
    exact hnone entry hentry hwrites
  | some e =>
    obtain ⟨k, s⟩ := e
    obtain ⟨hwrites, before, after, rfl, hafter⟩ := lastWriter?_eq_some_iff.mp hlast
    rw [get?_expand_of_last_write hwrites hafter, Option.map_some]

/-! ### Expanded layers -/

/-- After layering, the last writer of the upper layer competes with the entries that stand behind
its key, and only with these. -/
theorem lastWriter?_merge {base overrides : Sheet} {e : String × Style}
    (hoverrides : (Entries.keys overrides).Nodup)
    (h : lastWriter? properties keys key overrides = some e) :
    lastWriter? properties keys key (Entries.merge base overrides) =
      some ((lastWriter? properties keys key
        ((Entries.merge base overrides).behind e.1)).getD e) := by
  obtain ⟨k, s⟩ := e
  obtain ⟨hwrites, before, after, heq, -⟩ := lastWriter?_eq_some_iff.mp h
  have hmem : (k, s) ∈ overrides := by simp [heq]
  obtain ⟨front, hfront, -⟩ :=
    Entries.exists_eq_append_behind (Entries.get?_merge_of_mem base hoverrides hmem)
  have hlast : lastWriter? properties keys key
      (front ++ (k, s) :: (Entries.merge base overrides).behind k) =
        some ((lastWriter? properties keys key
          ((Entries.merge base overrides).behind k)).getD (k, s)) :=
    lastWriter?_append_cons hwrites
  rwa [← hfront] at hlast

/-- What layering and expansion make of a key that the upper layer writes to. The layers are one
list, in which the last writer of the upper layer stands at the first place of its key; of it and
the entries behind it the last one that writes to the key decides. So the upper layer decides if no
entry behind it writes to the key, for one thing if its own key is not in the lower layer, for
another if every entry that writes to the key has the same key as it. -/
theorem get?_expand_merge (properties : PropertyAliases) (keys : KeyAliases)
    {base overrides : Sheet} (hbase : (Entries.keys base).Nodup)
    (hoverrides : (Entries.keys overrides).Nodup) :
    let merged := Entries.merge base overrides
    merged = base.map (Entries.overlay overrides) ++
        overrides.filter (fun e => e.1 ∉ Entries.keys base) ∧
      ∀ key ∈ Entries.keys (overrides.expand properties keys), ∃ e ∈ overrides,
        lastWriter? properties keys key overrides = some e ∧
        Entries.get? key (overrides.expand properties keys) =
          some (e.2.expanded properties keys) ∧
        Entries.get? key (expand properties keys merged) =
          some (((lastWriter? properties keys key (merged.behind e.1)).getD e).2.expanded
            properties keys) ∧
        ((∀ later ∈ merged.behind e.1, ¬ Writes properties keys key later) →
          Entries.get? key (expand properties keys merged) =
            Entries.get? key (overrides.expand properties keys)) ∧
        (e.1 ∉ Entries.keys base →
          Entries.get? key (expand properties keys merged) =
            Entries.get? key (overrides.expand properties keys)) ∧
        ((∀ entry ∈ base ++ overrides, Writes properties keys key entry → entry.1 = e.1) →
          Entries.get? key (expand properties keys merged) =
            Entries.get? key (overrides.expand properties keys)) := by
  intro merged
  refine ⟨Entries.merge_eq hbase hoverrides, fun key hkey => ?_⟩
  obtain ⟨v, hv⟩ := Option.isSome_iff_exists.mp (Entries.get?_isSome_iff.mpr hkey)
  rw [get?_expand] at hv
  obtain ⟨e, hlast, -⟩ := Option.map_eq_some_iff.mp hv
  obtain ⟨hwrites, before, after, heq, hafter⟩ := lastWriter?_eq_some_iff.mp hlast
  have hupper : Entries.get? key (overrides.expand properties keys) =
      some (e.2.expanded properties keys) := by
    rw [get?_expand, hlast, Option.map_some]
  have hmerged : Entries.get? key (expand properties keys merged) =
      some (((lastWriter? properties keys key (merged.behind e.1)).getD e).2.expanded
        properties keys) := by
    rw [get?_expand, lastWriter?_merge hoverrides hlast, Option.map_some]
  have hwins : (∀ later ∈ merged.behind e.1, ¬ Writes properties keys key later) →
      Entries.get? key (expand properties keys merged) =
        Entries.get? key (overrides.expand properties keys) := by
    intro hlater
    rw [hmerged, hupper, lastWriter?_eq_none_iff.mpr hlater, Option.getD_none]
  refine ⟨e, by simp [heq], hlast, hupper, hmerged, hwins, ?_, ?_⟩
  · intro hnew
    refine hwins fun later hlater => hafter later ?_
    obtain ⟨k, s⟩ := e
    subst heq
    exact Entries.mem_of_mem_behind_merge hbase hoverrides hnew hlater
  · intro hown
    refine hwins fun later hlater hlaterWrites => ?_
    have hlayers : later ∈ base ++ overrides :=
      List.mem_append.mpr (Entries.mem_of_mem_merge (Entries.mem_of_mem_behind hlater))
    -- A later entry has another key than the writer, as no key is repeated.
    exact Entries.ne_of_mem_behind (Entries.nodup_keys_merge hbase) hlater
      (hown later hlayers hlaterWrites)

/-- The shorthand of the upper layer stands behind the longhand of the lower one, and decides. -/
theorem get?_expand_merge_behind :
    let base : Sheet := [("marginLeft", .scalar (.text "5px")), ("mx", .scalar (.text "1px"))]
    let overrides : Sheet := [("mx", .scalar (.text "9px"))]
    (Entries.keys base).Nodup ∧ (Entries.keys overrides).Nodup ∧
      "marginLeft" ∈ Entries.keys (overrides.expand .defaults ∅) ∧
      Entries.get? "marginLeft" (expand .defaults ∅ (Entries.merge base overrides)) =
        some (.scalar (.text "9px")) := by
  intro base overrides
  have hbase : (Entries.keys base).Nodup := by decide
  have hoverrides : (Entries.keys overrides).Nodup := by decide
  have hkey : "marginLeft" ∈ Entries.keys (overrides.expand .defaults ∅) := by decide
  obtain ⟨e, -, hlast, hupper, -, hwins, -⟩ :=
    (get?_expand_merge .defaults ∅ hbase hoverrides).2 "marginLeft" hkey
  obtain rfl : ("mx", .scalar (.text "9px")) = e := Option.some.inj hlast
  exact ⟨hbase, hoverrides, hkey, (hwins (by decide)).trans hupper⟩

/-- The longhand of the lower layer stands behind the shorthand, and overrules the upper layer. -/
theorem get?_expand_merge_overruled :
    let base : Sheet := [("mx", .scalar (.text "1px")), ("marginLeft", .scalar (.text "5px"))]
    let overrides : Sheet := [("mx", .scalar (.text "9px"))]
    ¬ ∀ key ∈ Entries.keys (overrides.expand .defaults ∅),
      Entries.get? key (expand .defaults ∅ (Entries.merge base overrides)) =
        Entries.get? key (overrides.expand .defaults ∅) := by
  intro base overrides h
  have hbelow : Entries.get? "marginLeft" (expand .defaults ∅ (Entries.merge base overrides)) =
      some (.scalar (.text "5px")) := rfl
  have habove : Entries.get? "marginLeft" (overrides.expand .defaults ∅) =
      some (.scalar (.text "9px")) := rfl
  have hsame := h "marginLeft" (by decide)
  rw [hbelow, habove] at hsame
  have htext : ("5px" : String) = "9px" :=
    Scalar.text.inj (Style.scalar.inj (Option.some.inj hsame))
  exact absurd htext (by decide)

end Sheet

end StyleTree
