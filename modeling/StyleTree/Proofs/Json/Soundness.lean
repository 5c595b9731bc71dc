import StyleTree.Proofs.Json.Grammar

/-!
# What the reader of values accepts

A value that is read from a text is spelt at the start of the text, after blanks, and what is left
is the text behind it. The members of an object are spelt one after another, whatever is made of
them: each reader of members that takes a value behind the colon folds the values in their order.

## Main definitions

* `Reader.Sound` — what is read with a bound on its depth is spelt where it is read
* `Reader.TakesValue` — a reader of members makes something of the value of each

## Main results

* `Reader.spelt_of_array`, `Reader.spelt_of_object` — an array, and an object with what is made of
  its members
* `Reader.spelt_of_value` — a value that is read is spelt
-/

namespace StyleTree.Json

variable {depth : Nat} {first : Bool} {c : Char} {cs letters rest t u : List Char} {v : Value}

theorem Separator.trans_blanks (h : Separator first t u) (hblanks : Blanks u cs) :
    Separator first t cs := by
  cases h with
  | first hfront => exact .first (hfront.trans hblanks)
  | next hcomma hfront => exact .next hcomma (hfront.trans hblanks)

namespace Reader

/-- The values that are read with this bound on their depth are spelt where they are read. -/
def Sound (depth : Nat) : Prop :=
  ∀ cs v u, value depth cs = .ok (v, u) → ∃ t, Blanks cs t ∧ Spelt depth (.value v) t u

/-- The reader of a member takes a value behind the colon, and `step` is what is made of it. -/
def TakesValue {σ : Type} (depth : Nat) (member : σ → String → Reader σ)
    (step : σ → String → Value → Option σ) : Prop :=
  ∀ acc k t acc' u, member acc k t = .ok (acc', u) →
    ∃ v t', Blanks t (':' :: t') ∧ value depth t' = .ok (v, u) ∧ step acc k v = some acc'

theorem eq_of_name_eq_ok {α : Type} {a b : α} (h : name a letters t = .ok (b, u)) :
    b = a ∧ t = letters ++ u := by
  rcases name_cases a letters t with ⟨u', rfl⟩ | ⟨fault, hfault, -⟩
  · rw [name_append] at h
    obtain ⟨rfl, rfl⟩ := Prod.mk.inj (Except.ok.inj h)
    exact ⟨rfl, rfl⟩
  · cases hfault.symm.trans h

theorem spelt_of_text {s : String} (h : text t = .ok (s, u)) : TextSpelt t s.toList u := by
  rcases text_cases t with ⟨s', u', htext⟩ | ⟨fault, hfault, -⟩
  · obtain ⟨rfl, rfl⟩ := Prod.mk.inj (Except.ok.inj ((text_eq htext).symm.trans h))
    exact htext
  · cases hfault.symm.trans h

theorem blanks_of_colon (h : colon t = .ok ((), u)) : Blanks t (':' :: u) := by
  rcases colon_cases t with ⟨u', hcolon⟩ | ⟨fault, hfault, -⟩
  · obtain ⟨-, rfl⟩ := Prod.mk.inj (Except.ok.inj ((colon_eq hcolon).symm.trans h))
    exact hcolon
  · cases hfault.symm.trans h

/-! ### Arrays -/

theorem blanks_of_nextElement (h : nextElement first t = .ok none) :
    ∃ u, Blanks t (']' :: u) := by
  unfold nextElement at h
  cases ht : skipSpace t with
  | nil => simp [ht] at h
  | cons c u =>
    rw [ht] at h
    dsimp only at h
    by_cases hclose : c = ']'
    · exact ⟨u, .of_skipSpace (hclose ▸ ht)⟩
    · rw [if_neg hclose] at h
      repeat' split at h
      all_goals cases h

theorem separator_of_nextElement (h : nextElement first t = .ok (some u)) :
    Separator first t u := by
  unfold nextElement at h
  cases ht : skipSpace t with
  | nil => simp [ht] at h
  | cons c u' =>
    have hblanks : Blanks t (c :: u') := .of_skipSpace ht
    rw [ht] at h
    dsimp only at h
    by_cases hclose : c = ']'
    · rw [if_pos hclose] at h
      cases h
    rw [if_neg hclose] at h
    cases first with
    | true =>
      obtain rfl := Option.some.inj (Except.ok.inj h)
      exact .first hblanks
    | false =>
      by_cases hcomma : c = ','
      · subst hcomma
        rw [if_neg (by decide), if_pos rfl] at h
        split at h
        · cases h
        · next d u'' hu =>
          split at h
          · cases h
          · obtain rfl := Option.some.inj (Except.ok.inj h)
            exact .next hblanks (.of_skipSpace hu)
      · rw [if_neg (by decide), if_neg hcomma] at h
        cases h

/-- The elements are collected in front of those before them. -/
theorem spelt_of_elements (hsound : Sound depth) (fuel : Nat) :
    ∀ {first : Bool} {acc acc' : List Value} {cs rest : List Char},
      elements (fun acc cs => (value depth cs).map fun (v, rest) => (v :: acc, rest)) fuel first acc
        cs = .ok (acc', rest) →
      ∃ vs u, Spelt depth (.elements first vs) cs u ∧ rest = ']' :: u ∧
        acc' = vs.reverse ++ acc := by
  -- The bound on the rounds only counts down, so the induction is on it.
  induction fuel with
  | zero => exact fun h => nomatch h
  | succ fuel ih =>
    intro first acc acc' cs rest h
    rw [elements] at h
    split at h
    · cases h
    · next hnext =>
      obtain ⟨u, hclose⟩ := blanks_of_nextElement hnext
      obtain ⟨rfl, rfl⟩ := Prod.mk.inj (Except.ok.inj h)
      exact ⟨[], u, .endElements hclose, hclose.skipSpace_eq_cons rfl, rfl⟩
    · next t hnext =>
      cases hvalue : value depth t with
      | error fault => simp [hvalue, Except.map] at h
      | ok result =>
        obtain ⟨v, t'⟩ := result
        rw [hvalue] at h
        obtain ⟨t₁, hblanks, hspelt⟩ := hsound _ _ _ hvalue
        obtain ⟨vs, u, hrest, hclose, rfl⟩ := ih h
        refine ⟨v :: vs, u, .element ?_ hspelt hrest, hclose, by simp⟩
        exact (separator_of_nextElement hnext).trans_blanks hblanks

theorem spelt_of_array (hsound : Sound depth) {vs : List Value}
    (h : array (fun acc cs => (value depth cs).map fun (v, rest) => (v :: acc, rest)) [] cs =
      .ok (vs, u)) : ∃ vs', Spelt depth (.elements true vs') cs u ∧ vs = vs'.reverse := by
  rw [array] at h
  split at h
  · cases h
  · next hread =>
    obtain ⟨rfl, rfl⟩ := Prod.mk.inj (Except.ok.inj h)
    obtain ⟨vs', u', hspelt, rfl, rfl⟩ := spelt_of_elements hsound _ hread
    exact ⟨vs', hspelt, List.append_nil _⟩

/-! ### Objects -/

section Objects

variable {σ : Type} {member : σ → String → Reader σ} {step : σ → String → Value → Option σ}
  (hsound : Sound depth) (hmember : TakesValue depth member step)

include hsound hmember

/-- The values of the members are folded in order. -/
theorem spelt_of_members (fuel : Nat) :
    ∀ {first : Bool} {acc acc' : σ} {cs rest : List Char},
      members text member fuel first acc cs = .ok (acc', rest) →
      ∃ ms u, Spelt depth (.members first ms) cs u ∧ rest = '\x7d' :: u ∧
        ms.foldlM (fun acc m => step acc m.1 m.2) acc = some acc' := by
  induction fuel with
  | zero => exact fun h => nomatch h
  | succ fuel ih =>
    intro first acc acc' cs rest h
    rcases nextMember_cases first cs with ⟨u, hclose⟩ | ⟨t, hfront⟩ | ⟨fault, hfault, -⟩
    · rw [members, nextMember_close hclose] at h
      obtain ⟨rfl, rfl⟩ := Prod.mk.inj (Except.ok.inj h)
      exact ⟨[], u, .endMembers hclose, rfl, rfl⟩
    · rw [members, nextMember_key hfront] at h
      dsimp only at h
      split at h
      · cases h
      · next k t₁ htext =>
        split at h
        · cases h
        · next acc₁ t₃ hread =>
          obtain ⟨v, t₂, hcolon, hvalue, hstep⟩ := hmember _ _ _ _ _ hread
          obtain ⟨t', hblanks, hspelt⟩ := hsound _ _ _ hvalue
          obtain ⟨ms, u, hrest, hclose, hfold⟩ := ih h
          refine ⟨(k, v) :: ms, u, .member ⟨hfront, spelt_of_text htext, hcolon⟩ hblanks hspelt
            hrest, hclose, ?_⟩
          rw [List.foldlM_cons, hstep]
          exact hfold
    · rw [members, hfault] at h
      cases h

theorem spelt_of_object {acc acc' : σ} (h : object text member acc cs = .ok (acc', u)) :
    ∃ ms, Spelt depth (.members true ms) cs u ∧
      ms.foldlM (fun acc m => step acc m.1 m.2) acc = some acc' := by
  rw [object] at h
  split at h
  · cases h
  · next hread =>
    obtain ⟨rfl, rfl⟩ := Prod.mk.inj (Except.ok.inj h)
    obtain ⟨ms, u', hspelt, rfl, hfold⟩ := spelt_of_members hsound hmember _ hread
    exact ⟨ms, hspelt, hfold⟩

end Objects

/-! ### Values -/

theorem spelt_of_name {name' : Value} (hname : IsName name' c letters)
    (h : name name' letters rest = .ok (v, u)) : Spelt depth (.value v) (c :: rest) u := by
  obtain ⟨rfl, rfl⟩ := eq_of_name_eq_ok h
  exact .name hname

/-- Only arrays and objects look at the depth that is left. -/
theorem sound_of_brackets
    (hlist : ∀ cs v u, value depth ('[' :: cs) = .ok (v, u) → Spelt depth (.value v) ('[' :: cs) u)
    (hobject : ∀ cs v u, value depth ('\x7b' :: cs) = .ok (v, u) →
      Spelt depth (.value v) ('\x7b' :: cs) u) : Sound depth := by
  intro cs v u h
  cases hcs : skipSpace cs with
  | nil =>
    rw [value.eq_def, hcs] at h
    cases h
  | cons c rest =>
    have hblanks : Blanks cs (c :: rest) := .of_skipSpace hcs
    refine ⟨c :: rest, hblanks, ?_⟩
    -- The reader comes to the same result behind the blanks.
    have hvalue : value depth (c :: rest) = .ok (v, u) := by
      rw [value.eq_def, ← hblanks.skipSpace_eq, ← value.eq_def, h]
    rw [value.eq_def, hcs] at h
    dsimp only at h
    cases start c with
    | name hname =>
      cases hname with
      | null =>
        rw [if_pos rfl] at h
        exact spelt_of_name .null h
      | true =>
        rw [if_neg (by decide), if_pos rfl] at h
        exact spelt_of_name .true h
      | false =>
        rw [if_neg (by decide), if_neg (by decide), if_pos rfl] at h
        exact spelt_of_name .false h
    | number hnumber =>
      obtain ⟨-, hnull, htrue, hfalse, -⟩ := ne_of_number hnumber
      rw [if_neg hnull, if_neg htrue, if_neg hfalse, if_pos hnumber] at h
      obtain ⟨⟨n, rest'⟩, hread, heq⟩ := exists_of_map_eq_ok h
      obtain ⟨rfl, rfl⟩ := Prod.mk.inj heq
      obtain ⟨f, hchars, -, hform⟩ := Numeral.read_eq_ok_iff.mp hread
      rw [hchars]
      exact .number hform
    | quote =>
      rw [if_neg (by decide), if_neg (by decide), if_neg (by decide), if_neg (by decide),
        if_pos rfl] at h
      obtain ⟨⟨s, rest'⟩, hread, heq⟩ := exists_of_map_eq_ok h
      obtain ⟨rfl, rfl⟩ := Prod.mk.inj heq
      exact .text (spelt_of_text hread)
    | bracket => exact hlist rest v u hvalue
    | brace => exact hobject rest v u hvalue
    | other hnull htrue hfalse hnumber hquote hbracket hbrace =>
      rw [if_neg hnull, if_neg htrue, if_neg hfalse, if_neg hnumber, if_neg hquote,
        if_neg hbracket, if_neg hbrace] at h
      cases h

/-- A member of a value is put in front of those before it. -/
theorem takesValue_collect (depth : Nat) :
    TakesValue depth (fun (acc : List (String × Value)) k cs => match colon cs with
        | .error fault => .error fault
        | .ok ((), cs) => (value depth cs).map fun (v, rest) => ((k, v) :: acc, rest))
      fun acc k v => some ((k, v) :: acc) := by
  intro acc k t acc' u h
  dsimp only at h
  split at h
  · cases h
  · next t' hcolon =>
    obtain ⟨⟨v, rest⟩, hread, heq⟩ := exists_of_map_eq_ok h
    obtain ⟨rfl, rfl⟩ := Prod.mk.inj heq
    exact ⟨v, t', blanks_of_colon hcolon, hread, rfl⟩

theorem foldlM_collect (ms acc : List (String × Value)) :
    ms.foldlM (fun acc m => some ((m.1, m.2) :: acc)) acc = some (ms.reverse ++ acc) := by
  induction ms generalizing acc with
  | nil => rfl
  | cons m ms ih => simp [List.foldlM_cons, ih]

/-- A value that is read is spelt at the start of the text. -/
theorem spelt_of_value (depth : Nat) : Sound depth := by
  induction depth with
  | zero =>
    refine sound_of_brackets (fun cs v u h => ?_) fun cs v u h => ?_
    · rw [value.eq_def, skipSpace_cons rfl] at h
      cases h
    · rw [value.eq_def, skipSpace_cons rfl] at h
      cases h
  | succ depth ih =>
    refine sound_of_brackets (fun cs v u h => ?_) fun cs v u h => ?_
    · rw [value.eq_def, skipSpace_cons rfl] at h
      obtain ⟨⟨vs, rest⟩, hread, heq⟩ := exists_of_map_eq_ok h
      obtain ⟨rfl, rfl⟩ := Prod.mk.inj heq
      obtain ⟨vs', hspelt, rfl⟩ := spelt_of_array ih hread
      rw [List.reverse_reverse]
      exact .list hspelt
    · rw [value.eq_def, skipSpace_cons rfl] at h
      obtain ⟨⟨ms, rest⟩, hread, heq⟩ := exists_of_map_eq_ok h
      obtain ⟨rfl, rfl⟩ := Prod.mk.inj heq
      obtain ⟨ms', hspelt, hfold⟩ := spelt_of_object ih (takesValue_collect depth) hread
      rw [foldlM_collect, List.append_nil] at hfold
      rw [← Option.some.inj hfold, List.reverse_reverse]
      exact .object hspelt

end Reader

end StyleTree.Json
