import Mathlib.Logic.ExistsUnique
import StyleTree.Entries

/-!
# Mappings and their histories

A mapping is changed by writes, removals, merges and collections, in any order and any number. What
it holds after a run can be told from the history of the run alone, that is, from the writes and
removals of single keys one after another: the value of a key is the one last written, unless the
key was removed since, and the keys stand in the order in which they were first written after their
last removal.

## Main definitions

* `Change`, `run` — the ways to change a mapping, and the mapping after a run of changes
* `Event`, `history` — what a run does to single keys
* `Since` — something happened, and nothing of another kind after it
* `Present`, `LastWrite`, `Begins` — what a history says about a key
* `Tells` — a history accounts for a mapping

## Main results

* `Tells.step` — an event goes into the account
* `tells_run` — the history of a run accounts for its result
* `run_follows_history` — keys, values and order after any run
-/

namespace StyleTree.Entries

variable {α : Type} {k l : String} {v : α} {es : Entries α}

/-- A change of a mapping. -/
inductive Change (α : Type) where
  /-- Writes a value. -/
  | insert (k : String) (v : α)
  /-- Removes an entry. -/
  | remove (k : String)
  /-- Writes the entries of another mapping. -/
  | merge (fs : Entries α)
  /-- Puts the mapping that is built from a list in its place. -/
  | collect (fs : List (String × α))

/-- The mapping after a change. -/
def Change.apply (es : Entries α) : Change α → Entries α
  | .insert k v => es.insert k v
  | .remove k => (es.remove k).2
  | .merge fs => es.merge fs
  | .collect fs => ofList fs

/-- The mapping after a run of changes, which starts with the empty one. -/
def run (changes : List (Change α)) : Entries α :=
  changes.foldl Change.apply []

/-- What can happen to single keys. -/
inductive Event (α : Type) where
  /-- A value is written to a key. -/
  | written (k : String) (v : α)
  /-- A key is removed. -/
  | removed (k : String)
  /-- All keys are removed. -/
  | cleared

namespace Event

/-- The event is a write to the key. -/
def Writes (k : String) : Event α → Prop
  | .written l _ => l = k
  | .removed _ | .cleared => False

/-- The event takes the key away. -/
def Removes (k : String) : Event α → Prop
  | .written _ _ => False
  | .removed l => l = k
  | .cleared => True

@[simp] theorem writes_written {k l : String} {v : α} :
    (written l v).Writes k ↔ l = k := Iff.rfl

@[simp] theorem not_writes_removed {k l : String} : ¬ (removed l : Event α).Writes k := id

@[simp] theorem not_writes_cleared {k : String} : ¬ (cleared : Event α).Writes k := id

@[simp] theorem not_removes_written {k l : String} {v : α} : ¬ (written l v).Removes k := id

@[simp] theorem removes_removed {k l : String} : (removed l : Event α).Removes k ↔ l = k := Iff.rfl

@[simp] theorem removes_cleared {k : String} : (cleared : Event α).Removes k := trivial

/-- The mapping after an event. -/
def apply (es : Entries α) : Event α → Entries α
  | .written k v => es.insert k v
  | .removed k => es.erase k
  | .cleared => []

end Event

/-- What a change does to single keys, in order. -/
def Change.events : Change α → List (Event α)
  | .insert k v => [.written k v]
  | .remove k => [.removed k]
  | .merge fs => fs.map fun e => .written e.1 e.2
  | .collect fs => .cleared :: fs.map fun e => .written e.1 e.2

/-- All that a run of changes does to single keys, in order. -/
def history (changes : List (Change α)) : List (Event α) :=
  changes.flatMap Change.events

variable {past : List (Event α)} {event : Event α}

/-- An event of the first kind happened, and none of the second kind after it. -/
def Since (begins ends : Event α → Prop) (past : List (Event α)) : Prop :=
  ∃ before event after, past = before ++ event :: after ∧ begins event ∧ ∀ e ∈ after, ¬ ends e

/-- The key was written and not removed since. -/
def Present (k : String) (past : List (Event α)) : Prop :=
  Since (Event.Writes k) (Event.Removes k) past

/-- The value was the last one written to the key, and the key was not removed since. -/
def LastWrite (k : String) (v : α) (past : List (Event α)) : Prop :=
  Since (· = .written k v) (fun e => e.Writes k ∨ e.Removes k) past

/-- The key was absent after the start of the past, was written then, and was not removed since. So
the start leads to the first write to the key after its last removal. -/
def Begins (k : String) (start past : List (Event α)) : Prop :=
  ¬ Present k start ∧
    ∃ v after, past = start ++ .written k v :: after ∧ ∀ e ∈ after, ¬ e.Removes k

/-- Both keys are present, and the first write to `k` after its last removal came before that to
`l`. -/
def Before (past : List (Event α)) (k l : String) : Prop :=
  ∃ start start', Begins k start past ∧ Begins l start' past ∧ start.length < start'.length

/-! ### Writing and removing an entry -/

/-- A removal gives what a lookup gives, and leaves the other entries. -/
theorem remove_eq : remove k es = (get? k es, erase k es) := by
  induction es with
  | nil => rfl
  | cons e rest ih =>
    obtain ⟨l, w⟩ := e
    rw [remove, get?, erase]
    split
    · rfl
    · rw [ih]

/-- Without repeated keys, removing an entry leaves all others as they are. -/
theorem erase_eq_filter (hes : (keys es).Nodup) : erase k es = es.filter fun e => e.1 ≠ k := by
  induction es with
  | nil => rfl
  | cons e rest ih =>
    obtain ⟨l, w⟩ := e
    obtain ⟨hl, hrest⟩ : l ∉ keys rest ∧ (keys rest).Nodup := List.nodup_cons.mp hes
    rw [erase]
    by_cases hlk : l = k
    · -- The entry is at the front, and its key does not come again.
      have hall : ∀ e ∈ rest, decide (e.1 ≠ k) = true := fun e he =>
        decide_eq_true fun heq => hl (hlk ▸ heq ▸ List.mem_map_of_mem he)
      rw [if_pos hlk, List.filter_cons_of_neg (by simpa using hlk), List.filter_eq_self.mpr hall]
    · rw [if_neg hlk, List.filter_cons_of_pos (by simpa using hlk), ih hrest]

theorem keys_erase (hes : (keys es).Nodup) : keys (erase k es) = (keys es).filter (· ≠ k) := by
  rw [erase_eq_filter hes, keys, keys, List.filter_map]
  rfl

theorem mem_keys_erase (hes : (keys es).Nodup) :
    l ∈ keys (erase k es) ↔ k ≠ l ∧ l ∈ keys es := by
  rw [keys_erase hes, List.mem_filter, decide_eq_true_iff, and_comm, ne_comm]

/-- A removal takes its key away and no other one. -/
theorem get?_erase (hes : (keys es).Nodup) :
    get? l (erase k es) = if k = l then none else get? l es := by
  induction es with
  | nil => simp [erase]
  | cons e rest ih =>
    obtain ⟨m, w⟩ := e
    obtain ⟨hm, hrest⟩ : m ∉ keys rest ∧ (keys rest).Nodup := List.nodup_cons.mp hes
    rw [erase]
    by_cases hmk : m = k
    · -- What is left is the rest, in which the key does not come again.
      subst hmk
      have hnone : get? m rest = none := get?_eq_none_iff.mpr hm
      by_cases hml : m = l
      · rw [if_pos rfl, if_pos hml, ← hml, hnone]
      · rw [if_pos rfl, if_neg hml, get?, if_neg hml]
    · rw [if_neg hmk, get?, get?, ih hrest]
      by_cases hml : m = l
      · rw [if_pos hml, if_neg (fun hkl => hmk (hml.trans hkl.symm)), if_pos hml]
      · rw [if_neg hml, if_neg hml]

/-! ### What one more event says -/

section Event

variable {begins ends : Event α → Prop} {start : List (Event α)}

theorem not_since_nil : ¬ Since begins ends [] := by
  rintro ⟨before, event, after, heq, -⟩
  exact absurd heq (by simp)

/-- Either the last event is of the first kind, or it is not of the second kind and one of the first
kind came before it. -/
theorem since_append_singleton :
    Since begins ends (past ++ [event]) ↔ begins event ∨ ¬ ends event ∧ Since begins ends past := by
  constructor
  · rintro ⟨before, found, after, heq, hfound, hafter⟩
    rcases List.eq_nil_or_concat after with rfl | ⟨after, last, rfl⟩
    · obtain ⟨-, rfl⟩ := List.append_singleton_inj.mp heq
      exact .inl hfound
    · -- The last event is the last one after the event that was found.
      rw [List.concat_eq_append] at heq hafter
      obtain ⟨rfl, rfl⟩ : past = before ++ found :: after ∧ event = last :=
        List.append_singleton_inj.mp (by simp [heq])
      rw [List.forall_mem_append, List.forall_mem_singleton] at hafter
      exact .inr ⟨hafter.2, before, found, after, rfl, hfound, hafter.1⟩
  · rintro (hbegins | ⟨hends, before, found, after, rfl, hfound, hafter⟩)
    · exact ⟨past, event, [], rfl, hbegins, by simp⟩
    · refine ⟨before, found, after ++ [event], by simp, hfound, ?_⟩
      rw [List.forall_mem_append, List.forall_mem_singleton]
      exact ⟨hafter, hends⟩

theorem present_append_singleton :
    Present k (past ++ [event]) ↔ event.Writes k ∨ ¬ event.Removes k ∧ Present k past :=
  since_append_singleton

theorem lastWrite_append_singleton :
    LastWrite k v (past ++ [event]) ↔
      event = .written k v ∨ ¬ (event.Writes k ∨ event.Removes k) ∧ LastWrite k v past :=
  since_append_singleton

theorem Begins.length_lt (h : Begins k start past) : start.length < past.length := by
  obtain ⟨-, v, after, rfl, -⟩ := h
  simp

theorem Begins.present (h : Begins k start past) : Present k past := by
  obtain ⟨-, v, after, rfl, hafter⟩ := h
  exact ⟨start, .written k v, after, rfl, rfl, hafter⟩

theorem Begins.isPrefix (h : Begins k start past) : start <+: past := by
  obtain ⟨-, v, after, rfl, -⟩ := h
  exact List.prefix_append _ _

/-- The key is present at every later time, so none of these is another start. -/
theorem Begins.eq_of_isPrefix {start' : List (Event α)} (h : Begins k start past)
    (h' : Begins k start' past) (hleads : start <+: start') : start = start' := by
  obtain ⟨-, v, after, hpast, hafter⟩ := h
  obtain ⟨habsent, v', after', hpast', -⟩ := h'
  obtain ⟨between, rfl⟩ := hleads
  rw [hpast, List.append_assoc, List.append_cancel_left_eq] at hpast'
  cases between with
  | nil => exact (List.append_nil start).symm
  | cons e between =>
    -- The second start comes behind the write at the first one, which nothing has undone.
    obtain ⟨rfl, rfl⟩ := List.cons.inj hpast'
    refine absurd ⟨start, _, between, rfl, rfl, fun e he => ?_⟩ habsent
    exact hafter e (List.mem_append_left _ he)

theorem Begins.eq {start' : List (Event α)} (h : Begins k start past)
    (h' : Begins k start' past) : start = start' := by
  rcases List.prefix_or_prefix_of_prefix h.isPrefix h'.isPrefix with hle | hle
  · exact h.eq_of_isPrefix h' hle
  · exact (h'.eq_of_isPrefix h hle).symm

/-- A key keeps its start until it is removed. -/
theorem Begins.append_singleton (h : Begins k start past) (hkeeps : ¬ event.Removes k) :
    Begins k start (past ++ [event]) := by
  obtain ⟨habsent, v, after, rfl, hafter⟩ := h
  refine ⟨habsent, v, after ++ [event], by simp, ?_⟩
  rw [List.forall_mem_append, List.forall_mem_singleton]
  exact ⟨hafter, hkeeps⟩

/-- A write to an absent key is its start. -/
theorem begins_written (h : ¬ Present k past) (v : α) : Begins k past (past ++ [.written k v]) :=
  ⟨h, v, [], rfl, by simp⟩

theorem Before.append_singleton (h : Before past k l) (hk : ¬ event.Removes k)
    (hl : ¬ event.Removes l) : Before (past ++ [event]) k l := by
  obtain ⟨start, start', hstart, hstart', hlt⟩ := h
  exact ⟨start, start', hstart.append_singleton hk, hstart'.append_singleton hl, hlt⟩

/-- The key that is written last comes after the others. -/
theorem before_written (hk : ∃ start, Begins k start past) (hl : ¬ Present l past) (v : α) :
    Before (past ++ [.written l v]) k l := by
  obtain ⟨start, hstart⟩ := hk
  exact ⟨start, past, hstart.append_singleton id, begins_written hl v, hstart.length_lt⟩

end Event

/-! ### A history accounts for a mapping -/

/-- The history accounts for the mapping: it tells which keys are there, with which values and in
which order. -/
structure Tells (past : List (Event α)) (es : Entries α) : Prop where
  nodup : (keys es).Nodup
  get?_iff : ∀ k v, get? k es = some v ↔ LastWrite k v past
  mem_iff : ∀ k, k ∈ keys es ↔ Present k past
  begins : ∀ k ∈ keys es, ∃ start, Begins k start past
  ordered : (keys es).Pairwise (Before past)

namespace Tells

theorem nil : Tells ([] : List (Event α)) [] where
  nodup := List.nodup_nil
  get?_iff k v := by simp [LastWrite, not_since_nil]
  mem_iff k := by simp [keys, Present, not_since_nil]
  begins k hk := absurd hk List.not_mem_nil
  ordered := List.Pairwise.nil

theorem written (h : Tells past es) (l : String) (w : α) :
    Tells (past ++ [.written l w]) (es.insert l w) where
  nodup := nodup_keys_insert h.nodup
  get?_iff k v := by
    rw [get?_insert, lastWrite_append_singleton]
    by_cases hlk : l = k
    · simp [hlk]
    · simpa [hlk] using h.get?_iff k v
  mem_iff k := by
    rw [mem_keys_insert, h.mem_iff, present_append_singleton]
    simp
  begins k hk := by
    -- A present key keeps its start, and an absent one that is written starts here.
    by_cases hmem : k ∈ keys es
    · obtain ⟨start, hstart⟩ := h.begins k hmem
      exact ⟨start, hstart.append_singleton id⟩
    · obtain rfl := (mem_keys_insert.mp hk).resolve_right hmem
      exact ⟨past, begins_written (fun hpresent => hmem ((h.mem_iff l).mpr hpresent)) w⟩
  ordered := by
    have hkept : (keys es).Pairwise (Before (past ++ [.written l w])) :=
      h.ordered.imp fun hbefore => hbefore.append_singleton id id
    by_cases hl : l ∈ keys es
    · rwa [keys_insert_of_mem hl]
    · -- A new key goes to the end, and its start comes after all others.
      rw [keys_insert_of_not_mem hl, List.pairwise_append]
      refine ⟨hkept, List.pairwise_singleton _ _, fun k hk m hm => ?_⟩
      obtain rfl := List.mem_singleton.mp hm
      exact before_written (h.begins k hk) (fun hpresent => hl ((h.mem_iff m).mpr hpresent)) w

theorem removed (h : Tells past es) (l : String) : Tells (past ++ [.removed l]) (es.erase l) where
  nodup := keys_erase h.nodup ▸ h.nodup.filter _
  get?_iff k v := by
    rw [get?_erase h.nodup, lastWrite_append_singleton]
    by_cases hlk : l = k
    · simp [hlk]
    · simpa [hlk] using h.get?_iff k v
  mem_iff k := by
    rw [mem_keys_erase h.nodup, h.mem_iff, present_append_singleton]
    simp
  begins k hk := by
    obtain ⟨hne, hmem⟩ := (mem_keys_erase h.nodup).mp hk
    obtain ⟨start, hstart⟩ := h.begins k hmem
    exact ⟨start, hstart.append_singleton hne⟩
  ordered := by
    rw [keys_erase h.nodup]
    -- Among the keys that are left, none is the removed one.
    refine (h.ordered.filter _).imp_of_mem fun {k m} hk hm hbefore => ?_
    rw [← keys_erase h.nodup, mem_keys_erase h.nodup] at hk hm
    exact hbefore.append_singleton hk.1 hm.1

theorem cleared : Tells (past ++ [.cleared]) ([] : Entries α) where
  nodup := List.nodup_nil
  get?_iff k v := by simp [lastWrite_append_singleton]
  mem_iff k := by simp [keys, present_append_singleton]
  begins k hk := absurd hk List.not_mem_nil
  ordered := List.Pairwise.nil

/-- An event goes into the account. -/
theorem step (h : Tells past es) (event : Event α) :
    Tells (past ++ [event]) (event.apply es) := by
  cases event with
  | written l w => exact h.written l w
  | removed l => exact h.removed l
  | cleared => exact cleared

/-- So do any events. -/
theorem foldl (h : Tells past es) (events : List (Event α)) :
    Tells (past ++ events) (events.foldl Event.apply es) := by
  induction events generalizing past es with
  | nil => rwa [List.append_nil]
  | cons event rest ih =>
    have hrest := ih (h.step event)
    rwa [List.append_assoc, List.singleton_append] at hrest

end Tells

/-! ### Runs -/

/-- A change is what its events come to. -/
theorem foldl_events (es : Entries α) (change : Change α) :
    change.events.foldl Event.apply es = change.apply es := by
  cases change with
  | insert k v => rfl
  | remove k => simp [Change.events, Change.apply, Event.apply, remove_eq]
  | merge fs => exact List.foldl_map
  | collect fs => exact List.foldl_map

/-- A run replays its history. -/
theorem foldl_history (changes : List (Change α)) :
    (history changes).foldl Event.apply [] = run changes := by
  rw [history, List.foldl_flatMap, run]
  simp only [foldl_events]

/-- The history of a run accounts for its result. -/
theorem tells_run (changes : List (Change α)) : Tells (history changes) (run changes) := by
  have h := Tells.nil.foldl (history changes)
  rwa [List.nil_append, foldl_history] at h

theorem run_append (changes more : List (Change α)) :
    run (changes ++ more) = more.foldl Change.apply (run changes) :=
  List.foldl_append

/-- What a mapping is after any run of changes, and so after every step of a run, since each step
ends a run. No key is repeated. A key has the value that was last written to it if it was not
removed since, and else none. The number of entries and the presence of keys agree with this. The
keys stand in the order of their first writes after their last removals: a write to a present key
moves nothing, and a key that was removed goes to the end when it is written again. A removal gives
the value that is there and leaves all other entries as they are. -/
theorem run_follows_history (changes : List (Change α)) :
    let es := run changes
    let past := history changes
    (keys es).Nodup ∧
      (∀ k v, get? k es = some v ↔ LastWrite k v past) ∧
      (∀ k, get? k es = none ↔ ¬ Present k past) ∧
      (∀ k, contains k es = (get? k es).isSome ∧ (contains k es = true ↔ k ∈ keys es)) ∧
      es.length = (keys es).length ∧
      (∀ k, k ∈ keys es ↔ ∃! start, Begins k start past) ∧
      (keys es).Pairwise (Before past) ∧
      (∀ k v, keys (run (changes ++ [.insert k v])) =
        if k ∈ keys es then keys es else keys es ++ [k]) ∧
      (∀ k v, keys (run (changes ++ [.remove k, .insert k v])) =
        (keys es).filter (· ≠ k) ++ [k]) ∧
      ∀ k, (es.remove k).1 = get? k es ∧ (es.remove k).2 = es.filter fun e => e.1 ≠ k := by
  intro es past
  have htells : Tells past es := tells_run changes
  refine ⟨htells.nodup, htells.get?_iff, fun k => ?_, fun k => ⟨rfl, get?_isSome_iff⟩,
    (List.length_map _).symm, fun k => ⟨fun hk => ?_, fun hk => ?_⟩, htells.ordered,
    fun k v => ?_, fun k v => ?_, fun k => ?_⟩
  · rw [get?_eq_none_iff, htells.mem_iff]
  · obtain ⟨start, hstart⟩ := htells.begins k hk
    exact ⟨start, hstart, fun start' hstart' => hstart'.eq hstart⟩
  · obtain ⟨start, hstart, -⟩ := hk
    exact (htells.mem_iff k).mpr hstart.present
  · rw [run_append]
    change keys (es.insert k v) = _
    by_cases hk : k ∈ keys es
    · rw [if_pos hk, keys_insert_of_mem hk]
    · rw [if_neg hk, keys_insert_of_not_mem hk]
  · rw [run_append]
    change keys ((es.remove k).2.insert k v) = _
    -- After the removal the key is absent, so the write puts it at the end.
    have habsent : k ∉ keys (erase k es) := by simp [keys_erase htells.nodup]
    rw [remove_eq, keys_insert_of_not_mem habsent, keys_erase htells.nodup]
  · rw [remove_eq, ← erase_eq_filter htells.nodup]
    exact ⟨rfl, rfl⟩

example : run [.insert "a" 1, .insert "b" 2, .remove "a", .merge [("b", 3), ("c", 4)],
    .insert "a" 5] = [("b", 3), ("c", 4), ("a", 5)] := by decide

end StyleTree.Entries
