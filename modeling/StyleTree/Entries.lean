/-!
# Entries in order of insertion

A mapping with text keys as the list of its entries, in the order in which the keys were first
inserted. Writing to a present key replaces the value where it stands; a new key goes to the end.

## Main definitions

* `Entries.insert`, `Entries.erase`, `Entries.merge` — the ways to change a mapping
* `Entries.remove` — an entry is removed and its value given back
* `Entries.ofList` — the entries of a list, inserted one after another
* `Entries.get?`, `Entries.contains`, `Entries.keys` — the views of a mapping

## Main results

* `get?_insert` — what a write changes
* `get?_merge`, `get?_ofList` — of several writes to a key the last one counts
* `mem_keys_insert` — the keys after a write
* `keys_insert_of_mem`, `keys_insert_of_not_mem` — a write never moves a key
* `nodup_keys_ofList` — a mapping built by insertion has each key once
-/

namespace StyleTree

/-- A list of entries; a mapping if no key is repeated. -/
abbrev Entries (α : Type) := List (String × α)

namespace Entries

variable {α : Type}

/-- The keys, in order. -/
def keys (es : Entries α) : List String :=
  es.map Prod.fst

/-- The value at a key. -/
def get? (k : String) : Entries α → Option α
  | [] => none
  | (k', v) :: rest => if k' = k then some v else get? k rest

/-- Whether a key is present. -/
def contains (k : String) (es : Entries α) : Bool :=
  (get? k es).isSome

/-- Writes a value: in place if the key is present, else at the end. -/
def insert (k : String) (v : α) : Entries α → Entries α
  | [] => [(k, v)]
  | (k', v') :: rest => if k' = k then (k', v) :: rest else (k', v') :: insert k v rest

/-- Removes the entry of a key. -/
def erase (k : String) : Entries α → Entries α
  | [] => []
  | (k', v) :: rest => if k' = k then rest else (k', v) :: erase k rest

/-- Removes the entry of a key, and gives its value with the entries that are left. -/
def remove (k : String) : Entries α → Option α × Entries α
  | [] => (none, [])
  | (k', v) :: rest =>
    if k' = k then (some v, rest)
    else
      let removed := remove k rest
      (removed.1, (k', v) :: removed.2)

/-- Writes the entries of the second mapping over the first, in order. -/
def merge (es fs : Entries α) : Entries α :=
  fs.foldl (fun acc e => acc.insert e.1 e.2) es

/-- The mapping built from a list by writing its entries in order. -/
def ofList (es : List (String × α)) : Entries α :=
  merge [] es

/-! ### Lookup after a write -/

@[simp] theorem get?_nil {k : String} : get? k ([] : Entries α) = none := rfl

theorem get?_insert {k k' : String} {v : α} {es : Entries α} :
    get? k' (insert k v es) = if k = k' then some v else get? k' es := by
  induction es with
  | nil => simp [insert, get?]
  | cons e rest ih =>
    obtain ⟨l, w⟩ := e
    simp only [insert]
    split <;> simp only [get?]
    · subst_vars; split <;> rfl
    · rw [ih]; grind

theorem get?_isSome_iff {k : String} {es : Entries α} : (get? k es).isSome ↔ k ∈ keys es := by
  induction es with
  | nil => simp [keys]
  | cons e rest ih =>
    simp only [get?, keys, List.map_cons, List.mem_cons]
    split <;> grind [keys]

theorem mem_keys_insert {k l : String} {v : α} {es : Entries α} :
    k ∈ keys (insert l v es) ↔ l = k ∨ k ∈ keys es := by
  rw [← get?_isSome_iff, get?_insert]
  by_cases hlk : l = k
  · simp [hlk]
  · simp [hlk, get?_isSome_iff]

theorem get?_eq_none_iff {k : String} {es : Entries α} : get? k es = none ↔ k ∉ keys es := by
  rw [← get?_isSome_iff, Option.not_isSome_iff_eq_none]

theorem mem_of_get?_eq_some {k : String} {v : α} {es : Entries α} (h : get? k es = some v) :
    (k, v) ∈ es := by
  induction es with
  | nil => simp at h
  | cons e rest ih =>
    obtain ⟨l, w⟩ := e
    rw [get?] at h
    split at h
    · next hk =>
      obtain rfl := Option.some.inj h
      exact hk ▸ List.mem_cons_self
    · exact List.mem_cons_of_mem _ (ih h)

/-- Without repeated keys an entry is found at its key. -/
theorem get?_of_mem {k : String} {v : α} {es : Entries α} (hes : (keys es).Nodup)
    (h : (k, v) ∈ es) : get? k es = some v := by
  induction es with
  | nil => simp at h
  | cons e rest ih =>
    obtain ⟨l, w⟩ := e
    obtain ⟨hl, hrest⟩ : l ∉ keys rest ∧ (keys rest).Nodup := List.nodup_cons.mp hes
    rcases List.mem_cons.mp h with heq | hmem
    · obtain ⟨rfl, rfl⟩ := Prod.mk.inj heq
      rw [get?, if_pos rfl]
    · have hne : l ≠ k := fun heq => hl (heq ▸ List.mem_map_of_mem hmem)
      rw [get?, if_neg hne, ih hrest hmem]

/-- Entries without repeated keys are found in any order. -/
theorem get?_perm {k : String} {es fs : Entries α} (h : es.Perm fs) (hfs : (keys fs).Nodup) :
    get? k es = get? k fs := by
  have hes : (keys es).Nodup := (h.map Prod.fst).nodup_iff.mpr hfs
  refine Option.ext fun v => ?_
  constructor
  · exact fun hget => get?_of_mem hfs (h.subset (mem_of_get?_eq_some hget))
  · exact fun hget => get?_of_mem hes (h.symm.subset (mem_of_get?_eq_some hget))

theorem get?_append {k : String} {es fs : Entries α} :
    get? k (es ++ fs) = (get? k es).or (get? k fs) := by
  induction es with
  | nil => simp
  | cons e rest ih =>
    rw [List.cons_append, get?, get?, ih]
    split <;> rfl

/-- The last write to a key counts, and what was there before only if there is none. -/
theorem get?_merge {k : String} {es fs : Entries α} :
    get? k (merge es fs) = (get? k fs.reverse).or (get? k es) := by
  induction fs generalizing es with
  | nil => simp [merge]
  | cons e rest ih =>
    have hstep : merge es (e :: rest) = merge (insert e.1 e.2 es) rest := rfl
    rw [hstep, ih, get?_insert, List.reverse_cons, get?_append, Option.or_assoc]
    congr 1
    rw [get?]
    split <;> rfl

/-- If no key is written twice, the value that is written counts. -/
theorem get?_merge_of_nodup {k : String} {es fs : Entries α} (hfs : (keys fs).Nodup) :
    get? k (merge es fs) = (get? k fs).or (get? k es) := by
  rw [get?_merge, get?_perm fs.reverse_perm hfs]

/-- In a mapping built from a list the last entry with a key counts. -/
theorem get?_ofList {k : String} {es : List (String × α)} :
    get? k (ofList es) = get? k es.reverse := by
  rw [ofList, get?_merge, get?_nil, Option.or_none]

theorem mem_of_mem_insert {k : String} {v : α} {es : Entries α} {e : String × α}
    (h : e ∈ insert k v es) : e = (k, v) ∨ e ∈ es := by
  induction es with
  | nil => simpa [insert] using h
  | cons f rest ih => grind [insert]

/-- Merging invents no entries. -/
theorem mem_of_mem_merge {es fs : Entries α} {e : String × α} (h : e ∈ merge es fs) :
    e ∈ es ∨ e ∈ fs := by
  induction fs generalizing es with
  | nil => exact .inl h
  | cons f rest ih =>
    have hstep : e ∈ merge (insert f.1 f.2 es) rest := h
    rcases ih hstep with h | h
    · rcases mem_of_mem_insert h with rfl | h
      · exact .inr List.mem_cons_self
      · exact .inl h
    · exact .inr (List.mem_cons_of_mem f h)

theorem mem_of_mem_ofList {es : List (String × α)} {e : String × α} (h : e ∈ ofList es) :
    e ∈ es := by
  simpa using mem_of_mem_merge h

/-! ### Other values at the same keys -/

theorem insert_map {β : Type} (f : α → β) {k : String} {v : α} {es : Entries α} :
    insert k (f v) (es.map fun e => (e.1, f e.2)) = (insert k v es).map fun e => (e.1, f e.2) := by
  induction es with
  | nil => rfl
  | cons e rest ih =>
    obtain ⟨l, w⟩ := e
    rw [List.map_cons, insert, insert, ih]
    split <;> rfl

/-- What is done to all values alike can be done before they are written. -/
theorem ofList_map {β : Type} (f : α → β) (es : List (String × α)) :
    ofList (es.map fun e => (e.1, f e.2)) = (ofList es).map fun e => (e.1, f e.2) := by
  have hmerge (acc : Entries α) :
      merge (acc.map fun e => (e.1, f e.2)) (es.map fun e => (e.1, f e.2)) =
        (merge acc es).map fun e => (e.1, f e.2) := by
    induction es generalizing acc with
    | nil => rfl
    | cons e rest ih =>
      have hstep : merge acc (e :: rest) = merge (insert e.1 e.2 acc) rest := rfl
      rw [hstep, ← ih, ← insert_map]
      rfl
  exact hmerge []

/-! ### Keys after a write -/

theorem keys_insert_of_mem {k : String} {v : α} {es : Entries α} (h : k ∈ keys es) :
    keys (insert k v es) = keys es := by
  induction es with
  | nil => simp [keys] at h
  | cons e rest ih =>
    simp only [insert]
    split
    · rfl
    · simp only [keys, List.map_cons, List.mem_cons] at h ih ⊢
      rw [ih (by grind)]

theorem keys_insert_of_not_mem {k : String} {v : α} {es : Entries α} (h : k ∉ keys es) :
    keys (insert k v es) = keys es ++ [k] := by
  induction es with
  | nil => rfl
  | cons e rest ih =>
    simp only [insert]
    simp only [keys, List.map_cons, List.mem_cons, not_or] at h ih ⊢
    rw [if_neg (Ne.symm h.1)]
    simp [ih h.2]

theorem nodup_keys_insert {k : String} {v : α} {es : Entries α} (h : (keys es).Nodup) :
    (keys (insert k v es)).Nodup := by
  by_cases hk : k ∈ keys es
  · rwa [keys_insert_of_mem hk]
  · rw [keys_insert_of_not_mem hk, List.nodup_append]
    grind

theorem nodup_keys_merge {es fs : Entries α} (h : (keys es).Nodup) :
    (keys (merge es fs)).Nodup := by
  induction fs generalizing es with
  | nil => exact h
  | cons e rest ih => exact ih (nodup_keys_insert h)

/-- A mapping built by insertion has each key once. -/
theorem nodup_keys_ofList {es : List (String × α)} : (keys (ofList es)).Nodup :=
  nodup_keys_merge (by simp [keys])

end Entries

end StyleTree
