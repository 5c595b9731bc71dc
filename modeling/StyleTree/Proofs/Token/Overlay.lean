import StyleTree.Proofs.Token.Ordered

/-!
# A tree laid over another one

Laying a tree over another one is settled segment by segment: a token of the upper tree is laid over
what stands at its segment below, and everything else stays. So a second time changes nothing, and
the order in which the tokens of a group are taken makes no difference, at any level.

## Main definitions

* `TokenTree.Laid` — the outcomes of laying tokens over a tree in the given order, with the tokens
  of each group inside in any order

## Main results

* `TokenTree.get?_overlay` — what stands at a segment afterwards
* `TokenTree.overlay_overlay` — a second time changes nothing
* `TokenTree.laid_iff` — every order has the same outcome
-/

namespace StyleTree

variable {segment : String} {token : Token} {tree present order : TokenTree}

namespace TokenTree

/-- Induction over a token tree from the groups among its entries. -/
theorem induction_groups {P : TokenTree → Prop}
    (step : ∀ tree, (∀ segment inner, (segment, .group inner) ∈ tree → P inner) → P tree)
    (tree : TokenTree) : P tree := by
  refine step tree ?_
  induction tree using TokenTree.induction with
  | nil => exact fun _ _ h => absurd h List.not_mem_nil
  | value segment text rest ih =>
    intro s inner hmem
    rcases List.mem_cons.mp hmem with heq | hmem
    · cases heq
    · exact ih s inner hmem
  | group segment inner rest ihinner ih =>
    intro s inner' hmem
    rcases List.mem_cons.mp hmem with heq | hmem
    · obtain rfl := Token.group.inj (Prod.mk.inj heq).2
      exact step inner' ihinner
    · exact ih s inner' hmem

/-! ### Segment by segment -/

/-- At a segment of the upper tree its token is laid over what stands there below, and at every
other segment nothing changes. -/
theorem get?_overlay (htree : (Entries.keys tree).Nodup) :
    Entries.get? segment (overlay tree present) =
      ((Entries.get? segment tree).map fun token => token.over (Entries.get? segment present)).or
        (Entries.get? segment present) := by
  induction tree generalizing present with
  | nil => rfl
  | cons e rest ih =>
    obtain ⟨segment', token⟩ := e
    obtain ⟨hsegment, hrest⟩ := List.nodup_cons.mp htree
    rw [overlay_cons, ih hrest, Entries.get?_insertSorted, Entries.get?]
    by_cases heq : segment' = segment
    · -- Behind its only entry the segment does not occur again.
      subst heq
      rw [Entries.get?_eq_none_iff.mpr hsegment, if_pos rfl, if_pos rfl]
      rfl
    · rw [if_neg heq, if_neg heq]

/-- A sorted tree is what it makes when laid over nothing. -/
theorem overlay_nil (htree : (Token.group tree).Ordered) : overlay tree [] = tree := by
  have hoverlay := ordered_overlay tree (Token.ordered_group_iff.mp htree).2 Token.ordered_group_nil
  refine hoverlay.1.eq_of_get?_eq htree.1 fun segment => ?_
  rw [get?_overlay htree.1.nodup_keys, Entries.get?_nil, Option.or_none]
  cases Entries.get? segment tree with
  | none => rfl
  | some token => exact congrArg some (Token.over_of_forall_ne fun _ => nofun)

/-- A group over anything is a group over the group that stands there, or over none. -/
theorem exists_over_group_eq (htree : (Token.group tree).Ordered) {below : Option Token}
    (hbelow : ∀ token ∈ below, token.Ordered) :
    ∃ lower, (Token.group lower).Ordered ∧
      (Token.group tree).over below = .group (overlay tree lower) := by
  by_cases hgroup : ∃ lower, below = some (.group lower)
  · obtain ⟨lower, rfl⟩ := hgroup
    exact ⟨lower, hbelow _ rfl, rfl⟩
  · refine ⟨[], Token.ordered_group_nil, ?_⟩
    rw [overlay_nil htree, Token.over_of_forall_ne fun lower heq => hgroup ⟨lower, heq⟩]

/-! ### A second time -/

/-- Laying a tree over another one a second time changes nothing. -/
theorem overlay_overlay (tree : TokenTree) :
    ∀ {present : TokenTree}, (Token.group tree).Ordered → (Token.group present).Ordered →
      overlay tree (overlay tree present) = overlay tree present := by
  induction tree using TokenTree.induction_groups with
  | step tree ih =>
    intro present htree hpresent
    have htokens := (Token.ordered_group_iff.mp htree).2
    have honce := ordered_overlay tree htokens hpresent
    refine (ordered_overlay tree htokens honce).1.eq_of_get?_eq honce.1 fun segment => ?_
    rw [get?_overlay htree.1.nodup_keys, get?_overlay htree.1.nodup_keys]
    cases hget : Entries.get? segment tree with
    | none => rfl
    | some token =>
      -- At the segment stands the token, laid over what was there before.
      have hmem := Entries.mem_of_get?_eq_some hget
      refine congrArg some ?_
      cases token with
      | value text => rfl
      | group inner =>
        have hbelow : ∀ token ∈ Entries.get? segment present, token.Ordered :=
          fun token hget => hpresent.child (Entries.mem_of_get?_eq_some hget)
        obtain ⟨lower, hlower, heq⟩ := exists_over_group_eq (htree.child hmem) hbelow
        simp only [Option.map_some, Option.some_or, heq, Token.over_group,
          ih segment inner hmem (htree.child hmem) hlower]

/-! ### In any order -/

/-- The order of the tokens that are laid over a tree makes no difference. -/
theorem overlay_perm (horder : order.Perm tree) (htree : (Token.group tree).Ordered)
    (hpresent : (Token.group present).Ordered) : overlay order present = overlay tree present := by
  have htokens := (Token.ordered_group_iff.mp htree).2
  have hkeys := htree.1.nodup_keys
  have hordered := ordered_overlay order (fun e he => htokens e (horder.subset he)) hpresent
  refine hordered.1.eq_of_get?_eq (ordered_overlay tree htokens hpresent).1 fun segment => ?_
  have horderKeys : (Entries.keys order).Nodup := (horder.map Prod.fst).nodup_iff.mpr hkeys
  rw [get?_overlay horderKeys, get?_overlay hkeys, Entries.get?_perm horder hkeys]

/-- The outcomes of laying tokens over a tree one after another in the given order. Where a group
meets a group, the tokens inside are taken in any order, and so on. -/
inductive Laid : List (String × Token) → TokenTree → TokenTree → Prop where
  | nil {present : TokenTree} : Laid [] present present
  | write {segment : String} {token : Token} {rest present result : TokenTree}
    (hother : ∀ inner below, token = .group inner →
      Entries.get? segment present ≠ some (.group below))
    (hrest : Laid rest (Entries.insertSorted segment token present) result) :
    Laid ((segment, token) :: rest) present result
  | group {segment : String} {inner order below merged rest present result : TokenTree}
    (hbelow : Entries.get? segment present = some (.group below)) (horder : order.Perm inner)
    (hmerged : Laid order below merged)
    (hrest : Laid rest (Entries.insertSorted segment (.group merged) present) result) :
    Laid ((segment, .group inner) :: rest) present result

/-- The given order has an outcome, with every group inside in its own order. -/
theorem laid_overlay (order : List (String × Token)) :
    ∀ {present : TokenTree}, Laid order present (overlay order present) := by
  induction order using TokenTree.induction with
  | nil => exact .nil
  | value segment text rest ih => exact .write (fun _ _ => nofun) ih
  | group segment inner rest ihinner ih =>
    intro present
    rw [overlay_cons]
    by_cases hgroup : ∃ below, Entries.get? segment present = some (.group below)
    · obtain ⟨below, hbelow⟩ := hgroup
      rw [hbelow, Token.over_group]
      exact .group hbelow (.refl inner) ihinner ih
    · have hother : ∀ below, Entries.get? segment present ≠ some (.group below) :=
        fun below heq => hgroup ⟨below, heq⟩
      rw [Token.over_of_forall_ne hother]
      exact .write (fun _ below _ => hother below) ih

/-- Whatever the orders inside, there is no other outcome. -/
theorem Laid.eq_overlay {result : TokenTree} (h : Laid order present result) :
    (Entries.keys order).Nodup → (∀ e ∈ order, e.2.Ordered) → (Token.group present).Ordered →
      result = overlay order present := by
  induction h with
  | nil => exact fun _ _ _ => rfl
  | @write segment token rest present result hother _ ih =>
    intro hkeys htokens hpresent
    obtain ⟨htoken, hrest⟩ := List.forall_mem_cons.mp htokens
    have hover : token.over (Entries.get? segment present) = token := by
      cases token with
      | value text => rfl
      | group inner => exact Token.over_of_forall_ne fun below => hother inner below rfl
    rw [overlay_cons, hover]
    exact ih (List.nodup_cons.mp hkeys).2 hrest (hpresent.insertSorted htoken)
  | @group segment inner order below merged rest present result hbelow horder _ _ ihmerged ih =>
    intro hkeys htokens hpresent
    obtain ⟨hinner, hrest⟩ := List.forall_mem_cons.mp htokens
    have hlower := hpresent.child (Entries.mem_of_get?_eq_some hbelow)
    have hinnerTokens := (Token.ordered_group_iff.mp hinner).2
    -- The tokens inside are taken in an order of their own, which makes no difference.
    have hmerged : merged = overlay inner below :=
      (ihmerged ((horder.map Prod.fst).nodup_iff.mpr hinner.1.nodup_keys)
        (fun e he => hinnerTokens e (horder.subset he)) hlower).trans
          (overlay_perm horder hinner hlower)
    have hordered : (Token.group merged).Ordered :=
      hmerged ▸ ordered_overlay inner hinnerTokens hlower
    rw [overlay_cons, hbelow, Token.over_group, ← hmerged]
    exact ih (List.nodup_cons.mp hkeys).2 hrest (hpresent.insertSorted hordered)

/-- In whatever orders the tokens of a tree are laid over another one, the outcome is one. -/
theorem laid_iff {result : TokenTree} (htree : (Token.group tree).Ordered)
    (hpresent : (Token.group present).Ordered) :
    (∃ order, order.Perm tree ∧ Laid order present result) ↔ result = merge present tree := by
  constructor
  · rintro ⟨order, horder, hlaid⟩
    rw [merge, ← overlay_perm horder htree hpresent]
    exact hlaid.eq_overlay ((horder.map Prod.fst).nodup_iff.mpr htree.1.nodup_keys)
      (fun e he => (Token.ordered_group_iff.mp htree).2 e (horder.subset he)) hpresent
  · rintro rfl
    exact ⟨tree, .refl tree, laid_overlay tree⟩

end TokenTree

end StyleTree
