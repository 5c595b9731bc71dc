import StyleTree.Entries

/-!
# Tables

A table holds at most one value for each key and no order of its own: its entries are kept sorted by
key, so two tables with the same values at the same keys are equal.

## Main definitions

* `Entries.Sorted`, `Entries.insertSorted` — entries in ascending order of their keys
* `Table` — sorted entries, with the proof that they are sorted
* `Table.get?`, `Table.insert`, `Table.erase`, `Table.extend` — its operations

## Main results

* `Sorted.eq_of_get?_eq`, `Table.ext_get?` — a table is determined by its lookups
* `get?_insertSorted` — what a write changes
-/

namespace StyleTree

namespace Entries

variable {α : Type} {k k' : String} {v : α} {es fs : Entries α}

/-- The keys are strictly ascending, by code points. -/
def Sorted (es : Entries α) : Prop :=
  es.Pairwise fun e f => e.1 < f.1

/-- Writes a value into sorted entries at the place of its key. -/
def insertSorted (k : String) (v : α) : Entries α → Entries α
  | [] => [(k, v)]
  | (k', v') :: rest =>
    if k < k' then (k, v) :: (k', v') :: rest
    else if k' = k then (k, v) :: rest
    else (k', v') :: insertSorted k v rest

theorem sorted_nil : Sorted ([] : Entries α) := List.Pairwise.nil

theorem sorted_cons {rest : Entries α} :
    Sorted ((k, v) :: rest) ↔ (∀ e ∈ rest, k < e.1) ∧ Sorted rest :=
  List.pairwise_cons

theorem mem_insertSorted {e : String × α} (h : e ∈ insertSorted k v es) :
    e = (k, v) ∨ e ∈ es := by
  induction es with
  | nil => simpa [insertSorted] using h
  | cons f rest ih => grind [insertSorted]

theorem Sorted.insertSorted (h : Sorted es) : Sorted (insertSorted k v es) := by
  induction es with
  | nil => simp [Entries.insertSorted, Sorted]
  | cons f rest ih =>
    obtain ⟨l, w⟩ := f
    obtain ⟨hl, hrest⟩ := sorted_cons.mp h
    unfold Entries.insertSorted
    split
    next hk =>
      refine sorted_cons.mpr ⟨fun e he => ?_, h⟩
      rcases List.mem_cons.mp he with rfl | he
      · exact hk
      · exact String.lt_trans hk (hl e he)
    next hk =>
      split
      next hkl => exact hkl ▸ sorted_cons.mpr ⟨hl, hrest⟩
      next hkl =>
        refine sorted_cons.mpr ⟨fun e he => ?_, ih hrest⟩
        rcases mem_insertSorted he with rfl | he
        · exact Std.lt_of_le_of_ne (String.not_lt.mp hk) hkl
        · exact hl e he

theorem Sorted.erase (h : Sorted es) : Sorted (erase k es) := by
  induction es with
  | nil => exact h
  | cons f rest ih =>
    obtain ⟨l, w⟩ := f
    obtain ⟨hl, hrest⟩ := sorted_cons.mp h
    unfold Entries.erase
    split
    · exact hrest
    · refine sorted_cons.mpr ⟨fun e he => hl e ?_, ih hrest⟩
      clear ih h hl hrest
      induction rest with
      | nil => exact he
      | cons g tail ih => grind [Entries.erase]

theorem get?_insertSorted :
    get? k' (insertSorted k v es) = if k = k' then some v else get? k' es := by
  induction es with
  | nil => simp [insertSorted, get?]
  | cons f rest ih => grind [insertSorted, get?]

theorem get?_eq_none_of_forall_lt (h : ∀ e ∈ es, k < e.1) : get? k es = none := by
  induction es with
  | nil => rfl
  | cons f rest ih =>
    obtain ⟨l, w⟩ := f
    have hl : k < l := h (l, w) (by simp)
    have hne : ¬ l = k := fun e => String.lt_irrefl k (e ▸ hl)
    rw [get?, if_neg hne]
    exact ih fun e he => h e (by simp [he])

/-- Sorted entries are determined by their lookups. -/
theorem Sorted.eq_of_get?_eq (he : Sorted es) (hf : Sorted fs)
    (h : ∀ k, get? k es = get? k fs) : es = fs := by
  induction es generalizing fs with
  | nil =>
    cases fs with
    | nil => rfl
    | cons f rest => have := h f.1; simp [get?] at this
  | cons e rest ih =>
    obtain ⟨k, v⟩ := e
    obtain ⟨hk, hrest⟩ := sorted_cons.mp he
    cases fs with
    | nil => have := h k; simp [get?] at this
    | cons f tail =>
      obtain ⟨l, w⟩ := f
      obtain ⟨hl, htail⟩ := sorted_cons.mp hf
      have hkl : k = l := by
        rcases Std.lt_trichotomy k l with hlt | heq | hgt
        · have hn := @get?_eq_none_of_forall_lt _ k ((l, w) :: tail) (by grind)
          rw [← h k] at hn
          simp [get?] at hn
        · exact heq
        · have hn := @get?_eq_none_of_forall_lt _ l ((k, v) :: rest) (by grind)
          rw [h l] at hn
          simp [get?] at hn
      subst hkl
      have hv : v = w := by simpa [get?] using h k
      subst hv
      congr 1
      refine ih hrest htail fun m => ?_
      by_cases hm : k = m
      · subst hm
        rw [get?_eq_none_of_forall_lt hk, get?_eq_none_of_forall_lt hl]
      · simpa [get?, hm] using h m

end Entries

/-- A finite table from texts to values. -/
structure Table (α : Type) where
  /-- The entries, in ascending order of their keys. -/
  entries : Entries α
  /-- No key is repeated. -/
  sorted : entries.Sorted

namespace Table

variable {α : Type}

/-- The table without entries. -/
def empty : Table α := ⟨[], Entries.sorted_nil⟩

instance : EmptyCollection (Table α) := ⟨empty⟩

/-- The value at a key. -/
def get? (t : Table α) (k : String) : Option α :=
  Entries.get? k t.entries

/-- Writes the value of a key. -/
def insert (t : Table α) (k : String) (v : α) : Table α :=
  ⟨Entries.insertSorted k v t.entries, t.sorted.insertSorted⟩

/-- Removes a key. -/
def erase (t : Table α) (k : String) : Table α :=
  ⟨Entries.erase k t.entries, t.sorted.erase⟩

/-- Writes the entries of a list, in order. -/
def extend (t : Table α) (es : List (String × α)) : Table α :=
  es.foldl (fun t e => t.insert e.1 e.2) t

/-- The table with the entries of a list; of equal keys the last one counts. -/
def ofList (es : List (String × α)) : Table α :=
  empty.extend es

/-- Two tables with the same lookups are equal. -/
theorem ext_get? {t u : Table α} (h : ∀ k, t.get? k = u.get? k) : t = u := by
  obtain ⟨es, hes⟩ := t
  obtain ⟨fs, hfs⟩ := u
  obtain rfl := hes.eq_of_get?_eq hfs h
  rfl

@[simp] theorem get?_empty {k : String} : (empty : Table α).get? k = none := rfl

theorem get?_insert {t : Table α} {k k' : String} {v : α} :
    (t.insert k v).get? k' = if k = k' then some v else t.get? k' :=
  Entries.get?_insertSorted

instance [DecidableEq α] : DecidableEq (Table α) := fun t u =>
  decidable_of_iff (t.entries = u.entries) ⟨fun h => by cases t; cases u; cases h; rfl,
    fun h => h ▸ rfl⟩

end Table

end StyleTree
