import StyleTree.Proofs.Token.Insertion
import StyleTree.Proofs.Token.Overlay
import StyleTree.Proofs.Token.Reaching

/-!
# Merging a tree value by value

A merge goes down two trees at once, an insertion goes down one path. A tree without empty groups is
nothing but its values, so merging it is inserting them one after another. No path of one value
leads through another value, so the order of the insertions makes no difference.

## Main definitions

* `Token.leaves`, `TokenTree.leaves` — the values in a tree, each with its path
* `Token.Filled`, `TokenTree.Filled` — no group inside is empty
* `Token.writeAll`, `TokenTree.insertAll` — values written one after another

## Main results

* `TokenTree.mem_leaves_iff` — the leaves are what is stored
* `Token.writeAll_perm` — values beside each other can be written in any order
* `TokenTree.group_overlay_eq_writeAll` — a tree is laid over another one value by value
* `TokenTree.insertAll_perm_leaves` — merging a tree is inserting its values, in any order
-/

namespace StyleTree

variable {segment text : String} {path : List String} {token : Token} {tree other : TokenTree}
  {ws order : List (List String × String)}

mutual

/-- The values in a token, each with its path. -/
def Token.leaves : Token → List (List String × String)
  | .value text => [([], text)]
  | .group entries => TokenTree.leaves entries

/-- The values among entries, each with its path. -/
def TokenTree.leaves : TokenTree → List (List String × String)
  | [] => []
  | (segment, token) :: rest =>
    token.leaves.map (fun leaf => (segment :: leaf.1, leaf.2)) ++ TokenTree.leaves rest

end

mutual

/-- The token is no empty group, and there is none in it. -/
def Token.Filled : Token → Prop
  | .value _ => True
  | .group entries => entries ≠ [] ∧ TokenTree.Filled entries

/-- There is no empty group among the entries or in them. -/
def TokenTree.Filled : TokenTree → Prop
  | [] => True
  | (_, token) :: rest => token.Filled ∧ TokenTree.Filled rest

end

/-- Values written below a token, one after another. -/
def Token.writeAll (token : Token) (ws : List (List String × String)) : Token :=
  ws.foldl (fun token w => token.write w.2 w.1) token

/-- Values inserted into a tree at the paths of their segments, one after another. -/
def TokenTree.insertAll (tree : TokenTree) (ws : List (List String × String)) : TokenTree :=
  ws.foldl (fun tree w => tree.insert (Token.joinDots w.1) w.2) tree

/-! ### The values in a tree -/

namespace TokenTree

theorem mem_leaves_cons_iff {rest : TokenTree} :
    (path, text) ∈ leaves ((segment, token) :: rest) ↔
      (∃ q, path = segment :: q ∧ (q, text) ∈ token.leaves) ∨ (path, text) ∈ rest.leaves := by
  rw [leaves, List.mem_append, List.mem_map]
  refine or_congr_left ⟨?_, ?_⟩
  · rintro ⟨⟨q, text'⟩, hmem, heq⟩
    obtain ⟨rfl, rfl⟩ := Prod.mk.inj heq
    exact ⟨q, rfl, hmem⟩
  · rintro ⟨q, rfl, hmem⟩
    exact ⟨(q, text), hmem, rfl⟩

/-- The leaves of a tree are the values that it stores. -/
theorem mem_leaves_iff (tree : TokenTree) :
    ∀ {path : List String}, (path, text) ∈ tree.leaves ↔ tree.Stores path text := by
  induction tree using TokenTree.induction with
  | nil => simp [leaves, not_stores_nil]
  | value segment v rest ih =>
    intro path
    rw [mem_leaves_cons_iff, stores_cons_iff, ih]
    simp [Token.leaves, Token.stores_value_iff]
  | group segment inner rest ihinner ih =>
    intro path
    rw [mem_leaves_cons_iff, stores_cons_iff, ih]
    simp only [Token.leaves, ihinner, Stores]

/-- No leaf has the empty path, since the root is a group. -/
theorem ne_nil_of_mem_leaves {leaf : List String × String} (h : leaf ∈ tree.leaves) :
    leaf.1 ≠ [] := by
  intro hnil
  have hstored := (mem_leaves_iff tree).mp h
  rw [hnil] at hstored
  cases hstored

/-- In a sorted tree no path of a value leads through another value. -/
theorem eq_of_mem_leaves (htree : (Token.group tree).Ordered)
    {leaf leaf' : List String × String} (h : leaf ∈ tree.leaves) (h' : leaf' ∈ tree.leaves)
    (hleads : leaf.1 <+: leaf'.1) : leaf = leaf' := by
  have hat := (Token.at?_eq_some_value_iff htree).mpr ((mem_leaves_iff tree).mp h)
  have hat' := (Token.at?_eq_some_value_iff htree).mpr ((mem_leaves_iff tree).mp h')
  by_cases hpath : leaf.1 = leaf'.1
  · rw [hpath, hat'] at hat
    have htext : leaf'.2 = leaf.2 := Token.value.inj (Option.some.inj hat)
    exact Prod.ext hpath htext.symm
  · -- The second value would stand below the first one.
    exact absurd ((Token.at?_eq_none_of_value hleads hpath hat).symm.trans hat') nofun

/-- A tree without empty groups has a value, unless it is empty itself. -/
theorem leaves_ne_nil (tree : TokenTree) : tree ≠ [] → tree.Filled → tree.leaves ≠ [] := by
  induction tree using TokenTree.induction with
  | nil => exact fun hne _ => absurd rfl hne
  | value segment v rest ih => exact fun _ _ => List.cons_ne_nil _ _
  | group segment inner rest ihinner ih =>
    rintro - ⟨⟨hne, hinner⟩, -⟩
    simp [leaves, Token.leaves, ihinner hne hinner]

end TokenTree

/-! ### Values written one after another -/

namespace Token

theorem writeAll_cons {w : List String × String} :
    token.writeAll (w :: ws) = (token.write w.2 w.1).writeAll ws := rfl

theorem writeAll_append {vs : List (List String × String)} :
    token.writeAll (vs ++ ws) = (token.writeAll vs).writeAll ws :=
  List.foldl_append

/-- Values beside each other can be written in any order. -/
theorem writeAll_perm (horder : order.Perm ws)
    (hbeside : ∀ v ∈ order, ∀ w ∈ order, v.1 <+: w.1 → v = w) :
    token.writeAll order = token.writeAll ws := by
  refine horder.foldl_eq' (fun v hv w hw token => ?_) token
  by_cases heq : v = w
  · rw [heq]
  · exact write_comm (fun hleads => heq (hbeside v hv w hw hleads))
      (fun hleads => heq (hbeside w hw v hv hleads).symm)

/-- In place of a value writes below it make the same group as below nothing. -/
theorem writeAll_value (hne : ws ≠ []) (hpaths : ∀ w ∈ ws, w.1 ≠ []) {v : String} :
    (value v).writeAll ws = (group []).writeAll ws := by
  cases ws with
  | nil => exact absurd rfl hne
  | cons w ws =>
    obtain ⟨path, text⟩ := w
    cases path with
    | nil => exact absurd rfl (hpaths _ List.mem_cons_self)
    | cons segment path => rfl

/-- Writes that share their first segment go into one entry. -/
theorem writeAll_map_cons (hne : ws ≠ []) :
    (group tree).writeAll (ws.map fun w => (segment :: w.1, w.2)) =
      group (Entries.insertSorted segment
        (((Entries.get? segment tree).getD (.group [])).writeAll ws) tree) := by
  induction ws generalizing tree with
  | nil => exact absurd rfl hne
  | cons w ws ih =>
    rw [List.map_cons, writeAll_cons, writeAll_cons, write_cons, entries]
    by_cases hlast : ws = []
    · subst hlast
      rfl
    · rw [ih hlast, Entries.get?_insertSorted, if_pos rfl, Entries.insertSorted_insertSorted,
        Option.getD_some]

end Token

/-! ### Value by value -/

namespace TokenTree

/-- A sorted tree without empty groups is laid over another one value by value. -/
theorem group_overlay_eq_writeAll (tree : TokenTree) :
    ∀ {present : TokenTree}, (∀ e ∈ tree, e.2.Ordered) → tree.Filled →
      Token.group (overlay tree present) = (Token.group present).writeAll tree.leaves := by
  induction tree using TokenTree.induction with
  | nil => exact fun _ _ => rfl
  | value segment v rest ih =>
    rintro present htree ⟨-, hrest⟩
    exact ih (List.forall_mem_cons.mp htree).2 hrest
  | group segment inner rest ihinner ih =>
    rintro present htree ⟨⟨hne, hinnerFilled⟩, hrestFilled⟩
    obtain ⟨hinner, hrest⟩ := List.forall_mem_cons.mp htree
    have hleaves := leaves_ne_nil inner hne hinnerFilled
    have hinnerTokens := (Token.ordered_group_iff.mp hinner).2
    have hover : (Token.group inner).over (Entries.get? segment present) =
        ((Entries.get? segment present).getD (.group [])).writeAll inner.leaves := by
      have hnew : Token.group inner = (Token.group []).writeAll inner.leaves := by
        rw [← ihinner hinnerTokens hinnerFilled, overlay_nil hinner]
      cases hget : Entries.get? segment present with
      | none => exact hnew
      | some token =>
        cases token with
        | value v =>
          -- A value gives way to the group, as it does to the first value of the group.
          rw [Option.getD_some, Token.writeAll_value hleaves fun w => ne_nil_of_mem_leaves]
          exact hnew
        | group below => exact ihinner hinnerTokens hinnerFilled
    rw [overlay_cons, ih hrest hrestFilled, leaves, Token.leaves, Token.writeAll_append,
      Token.writeAll_map_cons hleaves, hover]

/-- Insertions at paths of segments without dots are writes below the root. -/
theorem group_insertAll (hws : ∀ w ∈ ws, w.1 ≠ [] ∧ ∀ segment ∈ w.1, Token.Dotless segment) :
    Token.group (tree.insertAll ws) = (Token.group tree).writeAll ws := by
  induction ws generalizing tree with
  | nil => rfl
  | cons w ws ih =>
    obtain ⟨⟨hne, hdotless⟩, hrest⟩ := List.forall_mem_cons.mp hws
    have hfirst : Token.group (tree.insert (Token.joinDots w.1) w.2) =
        (Token.group tree).write w.2 w.1 := by
      rw [group_insert, Token.segments_joinDots hne hdotless]
    rw [Token.writeAll_cons, ← hfirst, ← ih hrest]
    rfl

/-- Merging a tree is inserting its values one by one, in any order, if none of its groups below
the root is empty and none of its segments has a dot. -/
theorem insertAll_perm_leaves (hother : (Token.group other).Ordered) (hfilled : other.Filled)
    (hdotless : ∀ leaf ∈ other.leaves, ∀ segment ∈ leaf.1, Token.Dotless segment)
    (horder : order.Perm other.leaves) (tree : TokenTree) :
    tree.insertAll order = tree.merge other := by
  have hmem : ∀ w ∈ order, w ∈ other.leaves := fun w hw => horder.subset hw
  have hinserted : Token.group (tree.insertAll order) = Token.group (tree.merge other) :=
    calc Token.group (tree.insertAll order)
      _ = (Token.group tree).writeAll order :=
        group_insertAll fun w hw => ⟨ne_nil_of_mem_leaves (hmem w hw), hdotless w (hmem w hw)⟩
      _ = (Token.group tree).writeAll other.leaves :=
        Token.writeAll_perm horder fun v hv w hw =>
          eq_of_mem_leaves hother (hmem v hv) (hmem w hw)
      _ = Token.group (tree.merge other) :=
        (group_overlay_eq_writeAll other (Token.ordered_group_iff.mp hother).2 hfilled).symm
  exact Token.group.inj hinserted

/-- The values of a tree, the last one first, over a value that gives way to a group and a group
that gives way to a value. -/
theorem insertAll_perm_leaves_palette :
    let tree : TokenTree := insert (insert [] "color" "red") "gap.small" "2px"
    let other : TokenTree :=
      [("color", .group [("green", .group [("500", .value "#22c55e")]), ("red", .value "#f00")]),
        ("gap", .value "4px")]
    let order :=
      [(["gap"], "4px"), (["color", "red"], "#f00"), (["color", "green", "500"], "#22c55e")]
    (Token.group other).Ordered ∧ other.Filled ∧
      (∀ leaf ∈ other.leaves, ∀ segment ∈ leaf.1, Token.Dotless segment) ∧
      order.Perm other.leaves ∧ tree.insertAll order = tree.merge other := by
  intro tree other order
  have hbuilt : other =
      insert (insert (insert [] "color.green.500" "#22c55e") "color.red" "#f00") "gap" "4px" := rfl
  have hother : (Token.group other).Ordered := by
    rw [hbuilt]
    exact ((Token.ordered_group_nil.insert "color.green.500" "#22c55e").insert "color.red"
      "#f00").insert "gap" "4px"
  have hfilled : other.Filled :=
    ⟨⟨nofun, ⟨nofun, trivial, trivial⟩, trivial, trivial⟩, trivial, trivial⟩
  have hdotless : ∀ leaf ∈ other.leaves, ∀ segment ∈ leaf.1, Token.Dotless segment := by
    decide +kernel
  have horder : order.Perm other.leaves := List.reverse_perm other.leaves
  exact ⟨hother, hfilled, hdotless, horder,
    insertAll_perm_leaves hother hfilled hdotless horder tree⟩

end TokenTree

end StyleTree
