import StyleTree.Proofs.Token.Insertion
import StyleTree.Proofs.Token.Overlay

/-!
# What a merge does

A merge can be told path by path. Where the other tree has a value on the way to a path or at its
end, or a group at its end, it settles which value there is, and at every other path the tree keeps
what it has.

## Main definitions

* `TokenTree.leaf?`, `TokenTree.Settles` — the value at a path, and the paths that a tree has a say
  about

## Main results

* `Token.at?_over_of_eq_some`, `Token.at?_over_of_eq_none` — a token laid over another one, path by
  path
* `TokenTree.merge_pointwise` — which of two trees a value comes from
-/

namespace StyleTree

variable {segment text : String} {path : List String} {token found : Token}
  {tree other : TokenTree} {below : Option Token}

/-! ### Path by path -/

namespace Token

/-- Where no group stands, nothing stands below it. -/
theorem bind_at?_cons_of_forall_ne (h : ∀ lower, below ≠ some (.group lower)) :
    below.bind (at? (segment :: path)) = none := by
  cases below with
  | none => rfl
  | some token =>
    cases token with
    | value v => rfl
    | group lower => exact absurd rfl (h lower)

@[simp] theorem over_none : token.over none = token :=
  over_of_forall_ne fun _ => nofun

/-- A token keeps its value when it is laid over another one, and a group remains a group. -/
theorem value?_over : (token.over below).value? = token.value? := by
  cases token with
  | value v => rfl
  | group inner =>
    cases below with
    | none => rfl
    | some lower => cases lower <;> rfl

/-- Where the upper token has something, it is laid over what stands there below. -/
theorem at?_over_of_eq_some (htoken : token.Ordered) (h : token.at? path = some found) :
    (token.over below).at? path = some (found.over (below.bind (at? path))) := by
  induction path generalizing token below with
  | nil =>
    obtain rfl := Option.some.inj h
    cases below <;> rfl
  | cons segment path ih =>
    cases token with
    | value v => cases h
    | group inner =>
      obtain ⟨child, hchild, hfound⟩ := Option.bind_eq_some_iff.mp h
      -- Only a group over a group is merged; over anything else the upper group stands as it is.
      by_cases hgroup : ∃ lower, below = some (.group lower)
      · obtain ⟨lower, rfl⟩ := hgroup
        have hmem := Entries.mem_of_get?_eq_some hchild
        rw [over_group, at?, entries, TokenTree.get?_overlay htoken.1.nodup_keys]
        rw [show Entries.get? segment inner = some child from hchild]
        exact ih (htoken.child hmem) hfound
      · have hother : ∀ lower, below ≠ some (.group lower) := fun lower heq => hgroup ⟨lower, heq⟩
        rw [over_of_forall_ne hother, h, bind_at?_cons_of_forall_ne hother, over_none]

/-- Where the upper token has nothing, and no value on the way, what stands there below is kept. -/
theorem at?_over_of_eq_none (htoken : token.Ordered) (h : token.at? path = none)
    (hway : ∀ start, start <+: path → ∀ v, token.at? start ≠ some (.value v)) :
    (token.over below).at? path = below.bind (at? path) := by
  induction path generalizing token below with
  | nil => cases h
  | cons segment path ih =>
    cases token with
    | value v => exact absurd rfl (hway [] List.nil_prefix v)
    | group inner =>
      by_cases hgroup : ∃ lower, below = some (.group lower)
      · obtain ⟨lower, rfl⟩ := hgroup
        rw [over_group, at?, entries, TokenTree.get?_overlay htoken.1.nodup_keys]
        cases hchild : Entries.get? segment inner with
        | none => rfl
        | some child =>
          have hmem := Entries.mem_of_get?_eq_some hchild
          refine ih (htoken.child hmem) ?_ fun start hstart v hv => ?_
          · simpa [at?, entries, hchild] using h
          · refine hway (segment :: start) (List.cons_prefix_cons.mpr ⟨rfl, hstart⟩) v ?_
            simpa [at?, entries, hchild] using hv
      · have hother : ∀ lower, below ≠ some (.group lower) := fun lower heq => hgroup ⟨lower, heq⟩
        rw [over_of_forall_ne hother, h, bind_at?_cons_of_forall_ne hother]

end Token

namespace TokenTree

/-- The value at a dotted path, if one stands there. -/
def leaf? (tree : TokenTree) (dotted : String) : Option String :=
  (tree.lookup dotted).bind Token.value?

/-- The tree has a say about a path: a value on the way or at the end, or a group at the end. -/
def Settles (tree : TokenTree) (path : List String) : Prop :=
  (∃ start, start ≠ [] ∧ start <+: path ∧ ∃ v, (Token.group tree).at? start = some (.value v)) ∨
    ∃ inner, (Token.group tree).at? path = some (.group inner)

/-- A tree has no say about what is below a segment that it does not have. -/
theorem not_settles_of_get?_eq_none (h : Entries.get? segment tree = none) :
    ¬ tree.Settles (segment :: path) := by
  have hnone (rest : List String) : (Token.group tree).at? (segment :: rest) = none := by
    rw [Token.at?, Token.entries, h, Option.bind_none]
  rintro (⟨start, hne, hstart, v, hv⟩ | ⟨inner, hinner⟩)
  · cases start with
    | nil => exact hne rfl
    | cons segment' rest =>
      obtain ⟨rfl, -⟩ := List.cons_prefix_cons.mp hstart
      cases (hnone rest).symm.trans hv
  · cases (hnone path).symm.trans hinner

theorem group_merge :
    Token.group (tree.merge other) = (Token.group other).over (some (.group tree)) := rfl

/-- What stands at a path after a merge, if the other tree has something there. -/
theorem lookup_merge_of_eq_some (hother : (Token.group other).Ordered) {dotted : String}
    (h : other.lookup dotted = some found) :
    (tree.merge other).lookup dotted = some (found.over (tree.lookup dotted)) := by
  rw [lookup, group_merge, Token.at?_over_of_eq_some hother h]
  rfl

theorem leaf?_merge_of_eq_some (hother : (Token.group other).Ordered) {dotted : String}
    (h : other.lookup dotted = some found) :
    (tree.merge other).leaf? dotted = other.leaf? dotted := by
  rw [leaf?, leaf?, lookup_merge_of_eq_some hother h, h, Option.bind_some, Option.bind_some,
    Token.value?_over]

/-- What stands at a path after a merge, if the other tree has no say about it. -/
theorem lookup_merge_of_not_settles (hother : (Token.group other).Ordered) {dotted : String}
    (h : ¬ other.Settles (Token.segments dotted)) :
    (tree.merge other).lookup dotted = tree.lookup dotted := by
  have hway : ∀ start, start <+: Token.segments dotted → ∀ v,
      (Token.group other).at? start ≠ some (.value v) := by
    intro start hstart v hv
    refine h (.inl ⟨start, ?_, hstart, v, hv⟩)
    -- The root is no value.
    rintro rfl
    cases hv
  have hnone : (Token.group other).at? (Token.segments dotted) = none := by
    cases hfound : (Token.group other).at? (Token.segments dotted) with
    | none => rfl
    | some token =>
      cases token with
      | value v => exact absurd hfound (hway _ (List.prefix_refl _) v)
      | group inner => exact absurd (.inr ⟨inner, hfound⟩) h
  rw [lookup, group_merge, Token.at?_over_of_eq_none hother hnone hway]
  rfl

/-- A merge, path by path. Where a value of the other tree stands on the way to a path or at its
end, or a group of it at the end, the value at the path afterwards is the one of the other tree, if
it has one; at every other path it is the one of the tree itself. Where both trees have a group, the
two groups are merged, and where only the other tree has one, it stands there as it is. -/
theorem merge_pointwise (hother : (Token.group other).Ordered) (tree : TokenTree)
    (dotted : String) :
    (other.Settles (Token.segments dotted) →
      (tree.merge other).leaf? dotted = other.leaf? dotted) ∧
    (¬ other.Settles (Token.segments dotted) →
      (tree.merge other).leaf? dotted = tree.leaf? dotted) ∧
    ∀ inner, other.lookup dotted = some (.group inner) →
      (∀ lower, tree.lookup dotted = some (.group lower) →
        (tree.merge other).lookup dotted = some (.group (TokenTree.merge lower inner))) ∧
      ((∀ lower, tree.lookup dotted ≠ some (.group lower)) →
        (tree.merge other).lookup dotted = some (.group inner)) := by
  refine ⟨?_, ?_, fun inner hinner => ⟨fun lower hlower => ?_, fun hlower => ?_⟩⟩
  · rintro (⟨start, -, hstart, v, hv⟩ | ⟨inner, hinner⟩)
    · by_cases heq : start = Token.segments dotted
      · exact leaf?_merge_of_eq_some hother (heq ▸ hv)
      · -- The value stands above the end of the path, in the other tree and after the merge.
        have hmerged : (Token.group (tree.merge other)).at? start = some (.value v) := by
          rw [group_merge, Token.at?_over_of_eq_some hother hv, Token.over_value]
        rw [leaf?, leaf?, lookup, lookup, Token.at?_eq_none_of_value hstart heq hv,
          Token.at?_eq_none_of_value hstart heq hmerged]
    · exact leaf?_merge_of_eq_some hother hinner
  · intro hsettles
    rw [leaf?, leaf?, lookup_merge_of_not_settles hother hsettles]
  · rw [lookup_merge_of_eq_some hother hinner, hlower]
    rfl
  · rw [lookup_merge_of_eq_some hother hinner, Token.over_of_forall_ne hlower]

/-- A group laid over a value, and a value over a group, with a neighbour that stays. -/
theorem merge_pointwise_palette :
    let tree : TokenTree :=
      insert (insert (insert [] "red" "#f00") "blue.dark" "navy") "green" "lime"
    let other : TokenTree := insert (insert [] "red.light" "#f88") "blue" "#00f"
    (Token.group other).Ordered ∧
      (tree.merge other).leaf? "red.light" = some "#f88" ∧
      (tree.merge other).leaf? "blue.dark" = none ∧
      (tree.merge other).leaf? "green" = some "lime" ∧
      (tree.merge other).lookup "red" = other.lookup "red" := by
  intro tree other
  have hother : (Token.group other).Ordered :=
    (Token.ordered_group_nil.insert "red.light" "#f88").insert "blue" "#00f"
  have hred : other.Settles (Token.segments "red.light") :=
    .inl ⟨["red", "light"], nofun, by decide +kernel, "#f88", rfl⟩
  have hblue : other.Settles (Token.segments "blue.dark") :=
    .inl ⟨["blue"], nofun, by decide +kernel, "#00f", rfl⟩
  have hgreen : ¬ other.Settles (Token.segments "green") := not_settles_of_get?_eq_none rfl
  have hgroup := (merge_pointwise hother tree "red").2.2 [("light", .value "#f88")] rfl
  exact ⟨hother, (merge_pointwise hother tree "red.light").1 hred,
    (merge_pointwise hother tree "blue.dark").1 hblue,
    (merge_pointwise hother tree "green").2.1 hgreen, hgroup.2 fun _ => nofun⟩

end TokenTree

end StyleTree
