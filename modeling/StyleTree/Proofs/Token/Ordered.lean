import StyleTree.Proofs.Json.Parts
import StyleTree.Token.Document

/-!
# Sorted groups

Every group of a token tree is sorted by segment, so no segment stands in it twice and the order of
the writes cannot be told from the tree. A tree without entries is sorted at every level, and each
way to change a tree keeps it so, the reader of documents included.

## Main results

* `TokenTree.induction` — induction over a tree, an entry at a time
* `Token.Ordered.insertSorted`, `Token.Ordered.erase`, `Token.Ordered.insert`,
  `TokenTree.ordered_overlay` — what each change keeps
* `TokenTree.ordered_of_read` — a tree that is read is sorted
-/

namespace StyleTree

open Json (Reader)

variable {segment : String} {token : Token} {tree present : TokenTree}

/-- Sorted entries repeat no key. -/
theorem Entries.Sorted.nodup_keys {α : Type} {es : Entries α} (h : Sorted es) :
    (keys es).Nodup := by
  refine List.pairwise_map.mpr (h.imp fun {e f} hlt heq => ?_)
  exact String.lt_irrefl f.1 (heq ▸ hlt)

theorem Entries.mem_of_mem_erase {α : Type} {k : String} {es : Entries α} {e : String × α}
    (h : e ∈ erase k es) : e ∈ es := by
  induction es with
  | nil => exact h
  | cons f rest ih => grind [erase]

/-- Induction over a token tree, an entry at a time. -/
theorem TokenTree.induction {P : TokenTree → Prop} (nil : P [])
    (value : ∀ segment text rest, P rest → P ((segment, .value text) :: rest))
    (group : ∀ segment inner rest, P inner → P rest → P ((segment, .group inner) :: rest))
    (tree : TokenTree) : P tree :=
  @Token.rec_1 (fun token => ∀ inner, token = .group inner → P inner) P
    (fun e => ∀ inner, e.2 = .group inner → P inner)
    (fun _ _ h => nomatch h)
    (fun _ ih _ h => Token.group.inj h ▸ ih)
    nil
    (fun e rest ihe ihrest => match e, ihe with
      | (segment, .value text), _ => value segment text rest ihrest
      | (segment, .group inner), ihe => group segment inner rest (ihe inner rfl) ihrest)
    (fun _ _ ih => ih)
    tree

theorem TokenTree.ordered_iff : TokenTree.Ordered tree ↔ ∀ e ∈ tree, e.2.Ordered := by
  induction tree with
  | nil => simp [TokenTree.Ordered]
  | cons e rest ih => rw [TokenTree.Ordered, ih, List.forall_mem_cons]

namespace Token

theorem ordered_group_iff :
    (group tree).Ordered ↔ Entries.Sorted tree ∧ ∀ e ∈ tree, e.2.Ordered := by
  rw [Ordered, TokenTree.ordered_iff]

theorem ordered_group_nil : (group []).Ordered :=
  ⟨Entries.sorted_nil, trivial⟩

namespace Ordered

theorem child (h : (group tree).Ordered) (hmem : (segment, token) ∈ tree) : token.Ordered :=
  (ordered_group_iff.mp h).2 _ hmem

theorem entries (h : token.Ordered) : (group token.entries).Ordered := by
  cases token with
  | value text => exact ordered_group_nil
  | group es => exact h

theorem insertSorted (h : (group tree).Ordered) (htoken : token.Ordered) :
    (group (Entries.insertSorted segment token tree)).Ordered := by
  obtain ⟨hsorted, htree⟩ := ordered_group_iff.mp h
  refine ordered_group_iff.mpr ⟨hsorted.insertSorted, fun e he => ?_⟩
  rcases Entries.mem_insertSorted he with rfl | he
  · exact htoken
  · exact htree e he

theorem erase (h : (group tree).Ordered) : (group (Entries.erase segment tree)).Ordered := by
  obtain ⟨hsorted, htree⟩ := ordered_group_iff.mp h
  exact ordered_group_iff.mpr ⟨hsorted.erase, fun e he => htree e (Entries.mem_of_mem_erase he)⟩

theorem write (text : String) {path : List String} (h : token.Ordered) :
    (token.write text path).Ordered := by
  induction path generalizing token with
  | nil => trivial
  | cons segment path ih =>
    refine h.entries.insertSorted (ih ?_)
    cases hget : Entries.get? segment token.entries with
    | none => exact ordered_group_nil
    | some child => exact h.entries.child (Entries.mem_of_get?_eq_some hget)

end Ordered

theorem Ordered.insert (h : (group tree).Ordered) (path text : String) :
    (group (tree.insert path text)).Ordered :=
  (h.write text).entries

/-! ### A tree laid over another one -/

@[simp] theorem over_value {text : String} {below : Option Token} :
    (value text).over below = value text := rfl

@[simp] theorem over_group {below : TokenTree} :
    (group tree).over (some (group below)) = group (TokenTree.overlay tree below) := rfl

/-- Where no group stands, the token takes the place. -/
theorem over_of_forall_ne {below : Option Token} (h : ∀ es, below ≠ some (group es)) :
    token.over below = token := by
  cases token with
  | value text => rfl
  | group es =>
    cases below with
    | none => rfl
    | some present =>
      cases present with
      | value text => rfl
      | group fs => exact absurd rfl (h fs)

end Token

theorem TokenTree.overlay_cons {rest : TokenTree} :
    TokenTree.overlay ((segment, token) :: rest) present =
      TokenTree.overlay rest
        (Entries.insertSorted segment (token.over (Entries.get? segment present)) present) := rfl

/-- Laying ordered tokens over a sorted tree gives a sorted tree. -/
theorem TokenTree.ordered_overlay (tree : TokenTree) :
    ∀ {present : TokenTree}, (∀ e ∈ tree, e.2.Ordered) → (Token.group present).Ordered →
      (Token.group (overlay tree present)).Ordered := by
  induction tree using TokenTree.induction with
  | nil => exact fun _ hpresent => hpresent
  | value segment text rest ih =>
    intro present htree hpresent
    exact ih (List.forall_mem_cons.mp htree).2 (hpresent.insertSorted trivial)
  | group segment inner rest ihinner ih =>
    intro present htree hpresent
    obtain ⟨hinner, hrest⟩ := List.forall_mem_cons.mp htree
    refine ih hrest (hpresent.insertSorted ?_)
    -- Only a group that stands at the segment is kept below the new one.
    cases hget : Entries.get? segment present with
    | none => exact hinner
    | some token =>
      cases token with
      | value text => exact hinner
      | group below =>
        have hbelow := hpresent.child (Entries.mem_of_get?_eq_some hget)
        exact ihinner (Token.ordered_group_iff.mp hinner).2 hbelow

/-! ### Trees that are read -/

mutual

theorem Token.ordered_of_ofValue? : ∀ {v : Json.Value} {token : Token},
    Token.ofValue? v = some token → token.Ordered
  | .text s, token, h => by
    obtain rfl := Option.some.inj h
    trivial
  | .object members, token, h => by
    obtain ⟨tree, htree, rfl⟩ := Option.map_eq_some_iff.mp h
    exact TokenTree.ordered_of_ofMembers? Token.ordered_group_nil htree

theorem TokenTree.ordered_of_ofMembers? : ∀ {members : List (String × Json.Value)}
    {tree tree' : TokenTree}, (Token.group tree).Ordered →
      TokenTree.ofMembers? tree members = some tree' → (Token.group tree').Ordered
  | [], tree, tree', htree, h => by
    obtain rfl := Option.some.inj h
    exact htree
  | (key, v) :: rest, tree, tree', htree, h => by
    rw [TokenTree.ofMembers?] at h
    cases hv : Token.ofValue? v with
    | none => simp [hv] at h
    | some token =>
      rw [hv] at h
      exact TokenTree.ordered_of_ofMembers? (htree.insertSorted (Token.ordered_of_ofValue? hv)) h

end

theorem TokenTree.ordered_of_member {depth : Nat} {tree' : TokenTree} {key : String}
    {cs rest : List Char} (htree : (Token.group tree).Ordered)
    (h : TokenTree.member depth tree key cs = .ok (tree', rest)) : (Token.group tree').Ordered := by
  rw [TokenTree.member] at h
  split at h
  · cases h
  · split at h
    · cases h
    · split at h
      · cases h
      · next htoken =>
        obtain ⟨rfl, -⟩ := Prod.mk.inj (Except.ok.inj h)
        exact htree.insertSorted (Token.ordered_of_ofValue? htoken)

/-- A tree that is read is sorted at every level, whatever the order of its members. -/
theorem TokenTree.ordered_of_read {depth : Nat} {cs rest : List Char}
    (h : TokenTree.read depth cs = .ok (tree, rest)) : (Token.group tree).Ordered := by
  rw [TokenTree.read] at h
  split at h
  · cases h
  · split at h
    · exact Reader.object_keeps (P := fun tree => (Token.group tree).Ordered)
        (fun _ _ _ _ _ => TokenTree.ordered_of_member) Token.ordered_group_nil h
    · cases h

end StyleTree
