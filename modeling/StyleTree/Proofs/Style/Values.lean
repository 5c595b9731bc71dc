import Mathlib.Data.List.Basic
import StyleTree.Proofs.Json.Grammar
import StyleTree.Style.Document

/-!
# The tree of a document

What a JSON value stands for in a style tree, if it stands for anything: a number, a text, or a tree
of which the values stand for something. Of a repeated key the first place and the last value count,
which is what writing the members one over the other comes to. A part of a document that spells such
values is read as what they stand for.

## Main definitions

* `Entries.settled` — each key of a list once, with its last value
* `Style.ofValue?`, `Sheet.entries?`, `Sheet.ofValue?` — the tree of a JSON value
* `ReadAs` — a part of a document is read as what it stands for

## Main results

* `Entries.ofList_eq_settled` — what writing the entries of a list one after another gives
* `Sheet.members_of_key`, `Sheet.members_of_close` — a step of the reader of members
* `readAs_of_spelt` — a part of the grammar is read as what it stands for
-/

namespace StyleTree

open Json (Blanks KeySpelt Reader Separator Spelt TextSpelt)

/-! ### Repeated keys -/

namespace Entries

variable {α : Type} {k : String} {v : α} {es fs : Entries α}

/-- Each key of a list once, where it first stands, with the value that it has last. -/
def settled (es : List (String × α)) : Entries α :=
  (keys es).eraseDups.filterMap fun k => (get? k es.reverse).map fun v => (k, v)

/-- A mapping without repeated keys is known from its keys and its values. -/
theorem filterMap_get?_keys (h : (keys es).Nodup) :
    (keys es).filterMap (fun k => (get? k es).map fun v => (k, v)) = es := by
  induction es with
  | nil => rfl
  | cons e rest ih =>
    obtain ⟨k, v⟩ := e
    obtain ⟨hk, hrest⟩ := List.nodup_cons.mp h
    have hkeys : keys ((k, v) :: rest) = k :: keys rest := rfl
    have htail : (keys rest).filterMap (fun l => (get? l ((k, v) :: rest)).map fun w => (l, w)) =
        (keys rest).filterMap (fun l => (get? l rest).map fun w => (l, w)) := by
      refine List.filterMap_congr fun l hl => ?_
      have hne : k ≠ l := fun heq => hk (heq ▸ hl)
      rw [get?, if_neg hne]
    have hhead : get? k ((k, v) :: rest) = some v := if_pos rfl
    rw [hkeys, List.filterMap_cons, hhead, htail, ih hrest]
    rfl

/-- A new key goes to the end, and an old one stays where it is. -/
theorem keys_merge (es fs : Entries α) :
    keys (merge es fs) = keys es ++ ((keys fs).filter fun k => k ∉ keys es).eraseDups := by
  induction fs generalizing es with
  | nil => exact (List.append_nil _).symm
  | cons e rest ih =>
    obtain ⟨k, v⟩ := e
    have hstep : merge es ((k, v) :: rest) = merge (insert k v es) rest := rfl
    have hkeys : keys ((k, v) :: rest) = k :: keys rest := rfl
    rw [hstep, ih, hkeys]
    by_cases hk : k ∈ keys es
    · rw [keys_insert_of_mem hk, List.filter_cons_of_neg (by simpa using hk)]
    · rw [keys_insert_of_not_mem hk, List.filter_cons_of_pos (by simpa using hk),
        List.eraseDups_cons, List.filter_filter, List.append_assoc, List.singleton_append]
      congr 3
      refine List.filter_congr fun l _ => ?_
      by_cases hl : l = k <;> simp [hl]

/-- A mapping built from a list has the keys of the list, each where it first stands. -/
theorem keys_ofList (es : List (String × α)) : keys (ofList es) = (keys es).eraseDups := by
  rw [ofList, keys_merge, keys, List.map_nil, List.nil_append,
    List.filter_eq_self.mpr fun _ _ => by simp]

theorem ofList_eq_settled (es : List (String × α)) : ofList es = settled es := by
  calc
    ofList es = (keys (ofList es)).filterMap
        fun k => (get? k (ofList es)).map fun v => (k, v) :=
      (filterMap_get?_keys nodup_keys_ofList).symm
    _ = settled es := by simp only [keys_ofList, get?_ofList, settled]

end Entries

/-! ### The tree of a value -/

mutual

/-- What a JSON value stands for in a style tree, if it does. -/
def Style.ofValue? : Json.Value → Option Style
  | .null | .boolean _ | .list _ => none
  | .number n => some (.scalar (.number n.toNumber))
  | .text s => some (.scalar (.text s))
  | .object ms => (Sheet.entries? ms).map fun es => .scope (Entries.settled es)

/-- The members of an object as entries of a style tree, repeated keys and all, if each of them
stands for something. -/
def Sheet.entries? : List (String × Json.Value) → Option (List (String × Style))
  | [] => some []
  | (k, v) :: ms =>
    match Style.ofValue? v, Sheet.entries? ms with
    | some s, some es => some ((k, s) :: es)
    | _, _ => none

end

/-- The style tree that a JSON value stands for, if it does. -/
def Sheet.ofValue? : Json.Value → Option Sheet
  | .object ms => (Sheet.entries? ms).map Entries.settled
  | _ => none

variable {depth fuel : Nat} {first : Bool} {k : String} {c : Char} {v : Json.Value} {s : Style}
  {ms : List (String × Json.Value)} {acc : Sheet} {es : List (String × Style)}
  {value : Reader Style} {cs t t' u : List Char}

theorem Sheet.entries?_cons_eq_some_iff :
    Sheet.entries? ((k, v) :: ms) = some es ↔
      ∃ s es', Style.ofValue? v = some s ∧ Sheet.entries? ms = some es' ∧ es = (k, s) :: es' := by
  rw [Sheet.entries?]
  cases Style.ofValue? v <;> cases Sheet.entries? ms <;> simp [eq_comm]

theorem Sheet.entries?_cons_eq_none_iff :
    Sheet.entries? ((k, v) :: ms) = none ↔ Style.ofValue? v = none ∨ Sheet.entries? ms = none := by
  rw [Sheet.entries?]
  cases Style.ofValue? v <;> cases Sheet.entries? ms <;> simp

/-! ### The reader of a value, by the first character -/

namespace Style

theorem read_of_blanks (h : Blanks t u) : Style.read depth t = Style.read depth u := by
  unfold Style.read
  rw [h.skipSpace_eq]

theorem read_quote :
    Style.read depth ('"' :: cs) =
      (Reader.text cs).map fun (s, rest) => (.scalar (.text s), rest) := by
  rw [Style.read.eq_def, Json.skipSpace_cons rfl]
  simp only [Char.reduceEq, ↓reduceIte]
  rfl

theorem read_numeral (hc : c = '-' ∨ c.isDigit) :
    Style.read depth (c :: cs) = (Json.Numeral.read (c :: cs)).map
      fun (n, rest) => (.scalar (.number n.toNumber), rest) := by
  obtain ⟨hspace, hnull, htrue, hfalse, -⟩ := Json.ne_of_number hc
  rw [Style.read.eq_def, Json.skipSpace_cons hspace]
  dsimp only
  rw [if_neg hnull, if_neg htrue, if_neg hfalse, if_pos hc]

theorem read_brace :
    Style.read (depth + 1) ('\x7b' :: cs) =
      (Reader.object Reader.text (Sheet.member (Style.read depth)) [] cs).map
        fun (es, rest) => (.scope es, rest) := by
  rw [Style.read.eq_def, Json.skipSpace_cons rfl]
  simp only [Char.reduceEq, ↓reduceIte]
  rfl

theorem read_brace_zero :
    Style.read 0 ('\x7b' :: cs) = .error (.inside .tooDeep ('\x7b' :: cs)) := by
  rw [Style.read.eq_def, Json.skipSpace_cons rfl]
  simp only [Char.reduceEq, ↓reduceIte]
  rfl

end Style

/-! ### The reader of a tree, a member at a time -/

section Members

variable {σ : Type} {member : σ → String → Reader σ} {init acc' : σ} {t₁ t₂ : List Char}

theorem Json.Reader.members_of_ok (hfront : Separator first t ('"' :: t₁))
    (htext : TextSpelt t₁ k.toList t₂) (hmember : member init k t₂ = .ok (acc', u)) :
    Reader.members Reader.text member (fuel + 1) first init t =
      Reader.members Reader.text member fuel false acc' u := by
  rw [Reader.members, Reader.nextMember_key hfront]
  dsimp only
  rw [Reader.text_eq htext]
  dsimp only
  rw [hmember]

theorem Json.Reader.members_of_error {fault : Json.Fault} (hfront : Separator first t ('"' :: t₁))
    (htext : TextSpelt t₁ k.toList t₂) (hmember : member init k t₂ = .error fault) :
    Reader.members Reader.text member (fuel + 1) first init t = .error fault := by
  rw [Reader.members, Reader.nextMember_key hfront]
  dsimp only
  rw [Reader.text_eq htext]
  dsimp only
  rw [hmember]

end Members

namespace Sheet

/-- A member is read before those behind it, and written over those in front of it. -/
theorem members_of_key (h : KeySpelt first k t u) (hvalue : value u = .ok (s, cs)) :
    Reader.members Reader.text (member value) (fuel + 1) first acc t =
      Reader.members Reader.text (member value) fuel false (Entries.insert k s acc) cs := by
  obtain ⟨hfront, htext, hcolon⟩ := h
  refine Reader.members_of_ok hfront htext ?_
  rw [member, Reader.colon_eq hcolon]
  dsimp only
  rw [hvalue]
  rfl

/-- The fault of a member is the fault of the object. -/
theorem members_of_key_error {fault : Json.Fault} (h : KeySpelt first k t u)
    (hvalue : value u = .error fault) :
    Reader.members Reader.text (member value) (fuel + 1) first acc t = .error fault := by
  obtain ⟨hfront, htext, hcolon⟩ := h
  refine Reader.members_of_error hfront htext ?_
  rw [member, Reader.colon_eq hcolon]
  dsimp only
  rw [hvalue]
  rfl

theorem members_of_close (h : Blanks t ('\x7d' :: u)) :
    Reader.members Reader.text (member value) (fuel + 1) first acc t = .ok (acc, '\x7d' :: u) := by
  rw [Reader.members, Reader.nextMember_close h]

/-- An object is read up to its closing brace, with as much fuel as it has characters. -/
theorem object_of_members
    (h : Reader.members Reader.text (member value) (cs.length + 1) true [] cs =
      .ok (acc, '\x7d' :: u)) :
    Reader.object Reader.text (member value) [] cs = .ok (acc, u) := by
  rw [Reader.object, h]
  rfl

theorem read_of_blanks (h : Blanks t u) : Sheet.read t = Sheet.read u := by
  rw [Sheet.read, Sheet.read, h.skipSpace_eq]

theorem read_brace :
    Sheet.read ('\x7b' :: cs) =
      Reader.object Reader.text (member (Style.read (Reader.depthLimit - 1))) [] cs := by
  rw [Sheet.read, Json.skipSpace_cons rfl]
  rfl

end Sheet

/-! ### Parts of the grammar -/

/-- What the readers make of a part with `u` behind it, if it stands for something. A number must be
complete before `u`. -/
def ReadAs (depth : Nat) (t u : List Char) : Json.Part → Prop
  | .value v => ∀ s, Style.ofValue? v = some s → Json.Numeral.Ends u →
    Style.read depth t = .ok (s, u)
  | .elements _ _ => True
  | .members first ms => ∀ es acc fuel, Sheet.entries? ms = some es → t.length < fuel →
    Reader.members Reader.text (Sheet.member (Style.read depth)) fuel first acc t =
      .ok (Entries.merge acc es, '\x7d' :: u)

theorem readAs_number {f : Json.Numeral.Form} {n : Json.Numeral} (hvalue : f.value? = some n) :
    ReadAs depth (f.chars ++ u) u (.value (.number n)) := by
  intro s hs hu
  obtain rfl := Option.some.inj hs
  obtain ⟨c, cs, hchars, hc⟩ := f.head_chars
  have hread := Json.Numeral.read_eq_ok_iff.mpr ⟨f, rfl, hu.tail f.tail, hvalue⟩
  rw [hchars, List.cons_append] at hread ⊢
  rw [Style.read_numeral hc, hread]
  rfl

theorem readAs_object (h : ReadAs depth t u (.members true ms)) :
    ReadAs (depth + 1) ('\x7b' :: t) u (.value (.object ms)) := by
  intro s hs _
  obtain ⟨es, hes, rfl⟩ := Option.map_eq_some_iff.mp hs
  rw [Style.read_brace, Sheet.object_of_members (h es [] _ hes (Nat.lt_succ_self _)),
    ← Entries.ofList_eq_settled]
  rfl

theorem readAs_member (hkey : KeySpelt first k t t') (hvalue : ReadAs depth t' cs (.value v))
    (hends : Json.Numeral.Ends cs) (hlength : cs.length ≤ t'.length)
    (hrest : ReadAs depth cs u (.members false ms)) :
    ReadAs depth t u (.members first ((k, v) :: ms)) := by
  intro es acc fuel hes hfuel
  obtain ⟨s, es', hs, hes', rfl⟩ := Sheet.entries?_cons_eq_some_iff.mp hes
  obtain ⟨fuel, rfl⟩ := Nat.exists_eq_succ_of_ne_zero (Nat.ne_zero_of_lt hfuel)
  -- The text behind the member is shorter than the text in front of it, so the fuel lasts.
  have hshorter := hkey.length_lt
  rw [Sheet.members_of_key hkey (hvalue s hs hends)]
  exact hrest es' _ fuel hes' (by omega)

/-- Each part of the grammar is read as what it stands for. -/
theorem readAs_of_spelt {part : Json.Part} (h : Spelt depth part t u) : ReadAs depth t u part := by
  induction h with
  | name hname => cases hname <;> exact fun s hs => nomatch hs
  | list => exact fun s hs => nomatch hs
  | number hvalue => exact readAs_number hvalue
  | text htext =>
    intro s hs _
    obtain rfl := Option.some.inj hs
    rw [Style.read_quote, Reader.text_eq htext]
    rfl
  | object _ ih => exact readAs_object ih
  | endElements | element => trivial
  | endMembers hclose =>
    intro es acc fuel hes hfuel
    obtain rfl := Option.some.inj hes
    obtain ⟨fuel, rfl⟩ := Nat.exists_eq_succ_of_ne_zero (Nat.ne_zero_of_lt hfuel)
    exact Sheet.members_of_close hclose
  | member hkey hblanks hvalue hrest ihvalue ihrest =>
    refine readAs_member hkey ?_ hrest.ends_members
      (hvalue.suffix.trans hblanks.suffix).length_le ihrest
    exact fun s hs hends => (Style.read_of_blanks hblanks).trans (ihvalue s hs hends)

end StyleTree
