import StyleTree.Proofs.Style.Layering

/-!
# Layers of mappings

Mappings without repeated keys form a monoid under layering, in which every mapping is idempotent.
The order of the entries counts, so it is not enough to compare what the layers hold. The laws come
from single writes: a write to a present key can be put off, since it moves nothing, and so a write
to the upper layer is a write to the result.

## Main results

* `merge_insert` — a write to the upper layer is a write to the result
* `merge_assoc` — layers can be put together from below or from above
* `merge_eq_self` — entries that are there already change nothing
* `merge_laws` — layering is an idempotent monoid; which keys and values the result has
-/

namespace StyleTree.Entries

variable {α : Type} {k l : String} {v w : α} {es fs gs : Entries α}

/-! ### Two writes -/

theorem insert_insert_self : insert k v (insert k w es) = insert k v es := by
  induction es with
  | nil => simp [insert]
  | cons e rest ih =>
    obtain ⟨m, x⟩ := e
    by_cases hm : m = k
    · simp [insert, hm]
    · simp [insert, hm, ih]

/-- A write to a present key can be put off, since it moves nothing. -/
theorem insert_comm_of_mem (hk : k ∈ keys es) (hne : k ≠ l) :
    insert l w (insert k v es) = insert k v (insert l w es) := by
  induction es with
  | nil => exact absurd hk List.not_mem_nil
  | cons e rest ih =>
    obtain ⟨m, x⟩ := e
    by_cases hmk : m = k
    · -- The key stands in front, and the other write goes on behind it.
      subst hmk
      simp [insert, hne]
    · have hrest : k ∈ keys rest := (List.mem_cons.mp hk).resolve_left (Ne.symm hmk)
      by_cases hml : m = l
      · simp [insert, hml, Ne.symm hne]
      · simp [insert, hmk, hml, ih hrest]

/-- Writing what is there already changes nothing. -/
theorem insert_eq_self (h : get? k es = some v) : insert k v es = es := by
  induction es with
  | nil => simp at h
  | cons e rest ih =>
    obtain ⟨m, x⟩ := e
    rw [get?] at h
    rw [insert]
    by_cases hm : m = k
    · rw [if_pos hm] at h ⊢
      rw [Option.some.inj h]
    · rw [if_neg hm] at h ⊢
      rw [ih h]

/-! ### Two layers -/

/-- A write to a present key can be put off until after the upper layer, unless that layer writes to
it. -/
theorem merge_insert_of_mem (hk : k ∈ keys es) (hfs : k ∉ keys fs) :
    merge (insert k v es) fs = insert k v (merge es fs) := by
  induction fs generalizing es with
  | nil => rfl
  | cons e rest ih =>
    obtain ⟨l, w⟩ := e
    obtain ⟨hne, hrest⟩ : k ≠ l ∧ k ∉ keys rest := by simpa [keys] using hfs
    have hmem : k ∈ keys (insert l w es) := mem_keys_insert.mpr (.inr hk)
    calc
      merge (insert k v es) ((l, w) :: rest) = merge (insert l w (insert k v es)) rest := rfl
      _ = merge (insert k v (insert l w es)) rest := by rw [insert_comm_of_mem hk hne]
      _ = insert k v (merge (insert l w es) rest) := ih hmem hrest

/-- A write to the upper layer is a write to the result. -/
theorem merge_insert (hfs : (keys fs).Nodup) :
    merge es (insert k v fs) = insert k v (merge es fs) := by
  induction fs generalizing es with
  | nil => rfl
  | cons e rest ih =>
    obtain ⟨l, w⟩ := e
    obtain ⟨hl, hrest⟩ : l ∉ keys rest ∧ (keys rest).Nodup := List.nodup_cons.mp hfs
    rw [insert]
    by_cases hlk : l = k
    · subst hlk
      -- The upper layer writes its old value first, and the new one takes its place.
      have hmem : l ∈ keys (insert l w es) := mem_keys_insert.mpr (.inl rfl)
      rw [if_pos rfl]
      calc
        merge es ((l, v) :: rest) = merge (insert l v es) rest := rfl
        _ = merge (insert l v (insert l w es)) rest := by rw [insert_insert_self]
        _ = insert l v (merge (insert l w es) rest) := merge_insert_of_mem hmem hl
    · rw [if_neg hlk]
      exact ih hrest

/-- Three layers can be put together from below or from above. -/
theorem merge_assoc (hfs : (keys fs).Nodup) : merge (merge es fs) gs = merge es (merge fs gs) := by
  -- The uppermost layer is written entry by entry, so the induction is for every layer below it.
  induction gs generalizing fs with
  | nil => rfl
  | cons e rest ih =>
    obtain ⟨k, v⟩ := e
    calc
      merge (merge es fs) ((k, v) :: rest) = merge (insert k v (merge es fs)) rest := rfl
      _ = merge (merge es (insert k v fs)) rest := by rw [merge_insert hfs]
      _ = merge es (merge (insert k v fs) rest) := ih (nodup_keys_insert hfs)

/-- Entries that are there already change nothing. -/
theorem merge_eq_self (h : ∀ e ∈ fs, get? e.1 es = some e.2) : merge es fs = es := by
  induction fs with
  | nil => rfl
  | cons e rest ih =>
    have hstep : merge es (e :: rest) = merge (insert e.1 e.2 es) rest := rfl
    rw [hstep, insert_eq_self (h e List.mem_cons_self)]
    exact ih fun e he => h e (List.mem_cons_of_mem _ he)

theorem merge_self (hes : (keys es).Nodup) : merge es es = es :=
  merge_eq_self fun _ he => get?_of_mem hes he

theorem keys_merge_of_nodup (hes : (keys es).Nodup) (hfs : (keys fs).Nodup) :
    keys (merge es fs) = keys es ++ (keys fs).filter (· ∉ keys es) := by
  rw [merge_eq hes hfs, keys, List.map_append, List.map_map, keys, keys, List.filter_map]
  rfl

/-- Layering is a monoid of mappings without repeated keys, in which the order of the entries
counts: no key is repeated in the result, the empty mapping is neutral on both sides, and three
layers can be put together from below or from above. A mapping laid over itself, or once more over a
result that it is on top of, changes nothing. The keys below keep their places, those that are only
above follow in their order, and the value above wins. -/
theorem merge_laws {a b : Entries α} (ha : (keys a).Nodup) (hb : (keys b).Nodup) (c : Entries α) :
    (keys (merge a b)).Nodup ∧
      merge (merge a b) c = merge a (merge b c) ∧
      merge [] a = a ∧
      merge a [] = a ∧
      merge a a = a ∧
      merge (merge a b) b = merge a b ∧
      keys (merge a b) = keys a ++ (keys b).filter (· ∉ keys a) ∧
      ∀ k, get? k (merge a b) = if k ∈ keys b then get? k b else get? k a := by
  have habove : merge (merge a b) b = merge a b := by
    rw [merge_assoc hb, merge_self hb]
  refine ⟨nodup_keys_merge ha, merge_assoc hb, ofList_eq_self ha, rfl, merge_self ha, habove,
    keys_merge_of_nodup ha hb, fun k => ?_⟩
  rw [get?_merge_of_nodup hb]
  by_cases hk : k ∈ keys b
  · obtain ⟨v, hv⟩ := Option.isSome_iff_exists.mp (get?_isSome_iff.mpr hk)
    rw [if_pos hk, hv, Option.some_or]
  · rw [if_neg hk, get?_eq_none_iff.mpr hk, Option.none_or]

/-- Three layers of styles: the color at the bottom keeps its place in front of the scope. -/
theorem merge_laws_card :
    let base : Entries Style :=
      [("color", .scalar (.text "red")), ("&:hover", .scope [("color", .scalar (.text "blue"))])]
    let theme : Entries Style :=
      [("margin", .scalar (.text "0")), ("color", .scalar (.text "green"))]
    let card : Entries Style :=
      [("&:hover", .scope []), ("margin", .scalar (.text "1px"))]
    (keys base).Nodup ∧ (keys theme).Nodup ∧
      merge (merge base theme) card = merge base (merge theme card) ∧
      merge (merge base theme) theme = merge base theme ∧
      keys (merge base theme) = ["color", "&:hover", "margin"] ∧
      get? "color" (merge base theme) = some (.scalar (.text "green")) := by
  intro base theme card
  have hbase : (keys base).Nodup := by decide
  have htheme : (keys theme).Nodup := by decide
  obtain ⟨-, hassoc, -, -, -, habove, hkeys, hget⟩ := merge_laws hbase htheme card
  refine ⟨hbase, htheme, hassoc, habove, ?_, ?_⟩
  · rw [hkeys]
    decide
  · rw [hget, if_pos (by decide)]
    rfl

end StyleTree.Entries
