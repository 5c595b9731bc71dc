import Mathlib.Control.Monad.Basic
import StyleTree.Proofs.Token.Keys
import StyleTree.Proofs.Token.Ordered

/-!
# Which tokens a reference reaches

A reference names a path, and the path is cut at every dot. So the values that can be reached are
those below segments without dots, and each of them is reached by its segments joined with dots. A
write at a path never makes another kind of segment. A segment that is given as a whole, or as the
key of a document, is kept as it is: a value below a segment with a dot is stored and listed like
any other, but no reference names it.

## Main definitions

* `Token.Stores`, `TokenTree.Stores` — a value stands below the segments of a path
* `Token.Dotless` — the segments that a path can name
* `TokenTree.Built` — the trees that come from the operations on trees, with a condition on the
  segments that are given as a whole, be it as keys of a text

## Main results

* `Token.at?_eq_some_value_iff` — in a sorted tree what is stored is what is found
* `TokenTree.hasKey_of_stores` — the segments in a tree that is read are keys of the text
* `TokenTree.Built.dotless_or_allowed` — dots in segments come from the segments that were given
* `TokenTree.resolve?_iff_stores` — which values references reach
-/

namespace StyleTree

/-- The value stands in the token below the segments of the path. -/
inductive Token.Stores : Token → List String → String → Prop where
  | here {text : String} : Stores (.value text) [] text
  | inside {entries : List (String × Token)} {segment : String} {token : Token} {path : List String}
    {text : String} (hmem : (segment, token) ∈ entries) (hstored : Stores token path text) :
    Stores (.group entries) (segment :: path) text

/-- The value stands in the tree below the segments of the path. -/
def TokenTree.Stores (tree : TokenTree) (path : List String) (text : String) : Prop :=
  (Token.group tree).Stores path text

/-- A segment that a path can name. -/
def Token.Dotless (segment : String) : Prop := '.' ∉ segment.toList

instance (segment : String) : Decidable (Token.Dotless segment) :=
  inferInstanceAs (Decidable (¬ _))

/-- The trees that come from the operations on trees. Segments that are given as a whole, one at a
time or as the keys of a text, satisfy `allowed`. -/
inductive TokenTree.Built (allowed : String → Prop) : TokenTree → Prop where
  | empty : Built allowed []
  | insert {tree : TokenTree} (htree : Built allowed tree) (path text : String) :
    Built allowed (tree.insert path text)
  | setValue {tree : TokenTree} {segment : String} (htree : Built allowed tree)
    (hsegment : allowed segment) (text : String) : Built allowed (tree.set segment (.value text))
  | setGroup {tree inner : TokenTree} {segment : String} (htree : Built allowed tree)
    (hsegment : allowed segment) (hinner : Built allowed inner) :
    Built allowed (tree.set segment (.group inner))
  | merge {tree other : TokenTree} (htree : Built allowed tree) (hother : Built allowed other) :
    Built allowed (tree.merge other)
  | erase {tree : TokenTree} (htree : Built allowed tree) (segment : String) :
    Built allowed (Entries.erase segment tree)
  | taken {tree inner : TokenTree} {segment : String} (htree : Built allowed tree)
    (hmem : (segment, .group inner) ∈ tree) : Built allowed inner
  | read {tree : TokenTree} {depth : Nat} {cs rest : List Char}
    (hread : TokenTree.read depth cs = .ok (tree, rest))
    (hkeys : ∀ key, Json.HasKey cs key → allowed key) : Built allowed tree

variable {segment : String} {path : List String} {text : String} {token : Token}
  {tree other : TokenTree}

/-! ### What is stored is what is found -/

namespace Token

theorem stores_value_iff {v : String} : (value v).Stores path text ↔ path = [] ∧ text = v := by
  constructor
  · intro h
    cases h
    exact ⟨rfl, rfl⟩
  · rintro ⟨rfl, rfl⟩
    exact .here

theorem stores_group_iff :
    (group tree).Stores path text ↔
      ∃ segment token rest, path = segment :: rest ∧ (segment, token) ∈ tree ∧
        token.Stores rest text := by
  constructor
  · intro h
    cases h with
    | inside hmem hstored => exact ⟨_, _, _, rfl, hmem, hstored⟩
  · rintro ⟨segment, token, rest, rfl, hmem, hstored⟩
    exact .inside hmem hstored

/-- A sorted group repeats no segment, so an entry is found at its segment. -/
theorem Ordered.get?_eq_some_iff (h : (group tree).Ordered) :
    Entries.get? segment tree = some token ↔ (segment, token) ∈ tree :=
  ⟨Entries.mem_of_get?_eq_some, Entries.get?_of_mem h.1.nodup_keys⟩

/-- In a sorted token the value at a path is the one that is stored there. -/
theorem at?_eq_some_value_iff (h : token.Ordered) :
    token.at? path = some (.value text) ↔ token.Stores path text := by
  induction path generalizing token with
  | nil =>
    cases token with
    | value v => simp [at?, stores_value_iff, eq_comm]
    | group es => simp [at?, stores_group_iff]
  | cons segment path ih =>
    cases token with
    | value v => simp [at?, entries, stores_value_iff]
    | group es =>
      rw [at?, entries, Option.bind_eq_some_iff, stores_group_iff]
      constructor
      · rintro ⟨child, hchild, hat⟩
        have hmem := h.get?_eq_some_iff.mp hchild
        exact ⟨segment, child, path, rfl, hmem, (ih (h.child hmem)).mp hat⟩
      · rintro ⟨_, child, _, heq, hmem, hstored⟩
        obtain ⟨rfl, rfl⟩ := List.cons.inj heq
        exact ⟨child, h.get?_eq_some_iff.mpr hmem, (ih (h.child hmem)).mpr hstored⟩

end Token

namespace TokenTree

theorem not_stores_nil : ¬ Stores [] path text := by
  simp [Stores, Token.stores_group_iff]

theorem stores_cons_iff {rest : TokenTree} :
    Stores ((segment, token) :: rest) path text ↔
      (∃ q, path = segment :: q ∧ token.Stores q text) ∨ rest.Stores path text := by
  simp only [Stores, Token.stores_group_iff, List.mem_cons, Prod.mk.injEq]
  constructor
  · rintro ⟨s, t, q, rfl, ⟨rfl, rfl⟩ | hmem, hstored⟩
    · exact .inl ⟨q, rfl, hstored⟩
    · exact .inr ⟨s, t, q, rfl, hmem, hstored⟩
  · rintro (⟨q, rfl, hstored⟩ | ⟨s, t, q, rfl, hmem, hstored⟩)
    · exact ⟨segment, token, q, rfl, .inl ⟨rfl, rfl⟩, hstored⟩
    · exact ⟨s, t, q, rfl, .inr hmem, hstored⟩

end TokenTree

/-! ### Where the values of a changed tree come from -/

namespace Token

/-- An entry that is written stands at its segment, and the other values were there before. -/
theorem Stores.of_insertSorted
    (h : (group (Entries.insertSorted segment token tree)).Stores path text) :
    (∃ rest, path = segment :: rest ∧ token.Stores rest text) ∨ (group tree).Stores path text := by
  obtain ⟨segment', token', rest, rfl, hmem, hstored⟩ := stores_group_iff.mp h
  rcases Entries.mem_insertSorted hmem with heq | hmem
  · obtain ⟨rfl, rfl⟩ := Prod.mk.inj heq
    exact .inl ⟨rest, rfl, hstored⟩
  · exact .inr (.inside hmem hstored)

/-- The entries of a token store what it stores, and a value without entries stores nothing below a
segment. -/
theorem Stores.of_entries (h : (group token.entries).Stores path text) :
    token.Stores path text := by
  cases token with
  | value v => simp [entries, stores_group_iff] at h
  | group es => exact h

/-- A write at a path makes no other value. -/
theorem Stores.of_write {written : String} {target : List String}
    (h : (token.write written target).Stores path text) :
    path = target ∧ text = written ∨ token.Stores path text := by
  induction target generalizing token path with
  | nil =>
    rw [write, stores_value_iff] at h
    exact .inl h
  | cons segment target ih =>
    rcases of_insertSorted h with ⟨rest, rfl, hstored⟩ | hstored
    · rcases ih hstored with ⟨rfl, rfl⟩ | hstored
      · exact .inl ⟨rfl, rfl⟩
      · -- The child was there before, or it is new and stores nothing.
        cases hget : Entries.get? segment token.entries with
        | none =>
          rw [hget] at hstored
          exact absurd hstored TokenTree.not_stores_nil
        | some child =>
          rw [hget] at hstored
          exact .inr (.of_entries (.inside (Entries.mem_of_get?_eq_some hget) hstored))
    · exact .inr (.of_entries hstored)

end Token

/-- Laying a tree over another one makes no other value. -/
theorem TokenTree.stores_of_overlay (tree : TokenTree) :
    ∀ {present : TokenTree} {path : List String}, (overlay tree present).Stores path text →
      tree.Stores path text ∨ present.Stores path text := by
  induction tree using TokenTree.induction with
  | nil => exact fun h => .inr h
  | value segment v rest ih =>
    intro present path h
    rcases ih h with hrest | hwritten
    · exact .inl (stores_cons_iff.mpr (.inr hrest))
    rcases Token.Stores.of_insertSorted hwritten with ⟨q, rfl, hstored⟩ | hstored
    · exact .inl (.inside List.mem_cons_self hstored)
    · exact .inr hstored
  | group segment inner rest ihinner ih =>
    intro present path h
    rcases ih h with hrest | hwritten
    · exact .inl (stores_cons_iff.mpr (.inr hrest))
    rcases Token.Stores.of_insertSorted hwritten with ⟨q, rfl, hstored⟩ | hstored
    · -- The new group is laid over one that stands at the segment, or takes the place.
      by_cases hgroup : ∃ below, Entries.get? segment present = some (.group below)
      · obtain ⟨below, hbelow⟩ := hgroup
        rw [hbelow, Token.over_group] at hstored
        rcases ihinner hstored with hinner | hpresent
        · exact .inl (.inside List.mem_cons_self hinner)
        · exact .inr (.inside (Entries.mem_of_get?_eq_some hbelow) hpresent)
      · rw [Token.over_of_forall_ne fun below heq => hgroup ⟨below, heq⟩] at hstored
        exact .inl (.inside List.mem_cons_self hstored)
    · exact .inr hstored

/-! ### Trees that are read -/

mutual

/-- The segments in a token stand as keys in the value that it was read from. -/
theorem Token.hasKey_of_ofValue? : ∀ {v : Json.Value} {token : Token} {path : List String},
    Token.ofValue? v = some token → token.Stores path text →
      ∀ segment ∈ path, v.HasKey segment
  | .text s, token, path, h, hstored => by
    obtain rfl := Option.some.inj h
    obtain ⟨rfl, -⟩ := Token.stores_value_iff.mp hstored
    exact fun _ hmem => absurd hmem List.not_mem_nil
  | .object ms, token, path, h, hstored => by
    obtain ⟨tree, htree, rfl⟩ := Option.map_eq_some_iff.mp h
    rcases TokenTree.hasKey_of_ofMembers? htree hstored with hkeys | hnil
    · exact hkeys
    · exact absurd hnil TokenTree.not_stores_nil

/-- What a tree of members stores, stands below keys of the members, or it was stored before. -/
theorem TokenTree.hasKey_of_ofMembers? : ∀ {ms : List (String × Json.Value)}
    {tree tree' : TokenTree} {path : List String}, TokenTree.ofMembers? tree ms = some tree' →
      tree'.Stores path text →
        (∀ segment ∈ path, (Json.Value.object ms).HasKey segment) ∨ tree.Stores path text
  | [], tree, tree', path, h, hstored => by
    obtain rfl := Option.some.inj h
    exact .inr hstored
  | (key, v) :: ms, tree, tree', path, h, hstored => by
    rw [TokenTree.ofMembers?] at h
    cases hv : Token.ofValue? v with
    | none => simp [hv] at h
    | some token =>
      rw [hv] at h
      rcases TokenTree.hasKey_of_ofMembers? h hstored with hkeys | hwritten
      · left
        intro segment hmem
        exact Json.Value.hasKey_object_cons_iff.mpr (.inr (.inr (hkeys segment hmem)))
      rcases Token.Stores.of_insertSorted hwritten with ⟨rest, rfl, hbelow⟩ | hbefore
      · left
        intro segment hmem
        rcases List.mem_cons.mp hmem with rfl | hmem
        · exact .here List.mem_cons_self
        · exact .member List.mem_cons_self (Token.hasKey_of_ofValue? hv hbelow segment hmem)
      · exact .inr hbefore

end

/-- The segments in a tree that is read are keys of the text. -/
theorem TokenTree.hasKey_of_stores {depth : Nat} {cs rest : List Char}
    (hread : TokenTree.read depth cs = .ok (tree, rest)) (hstored : tree.Stores path text) :
    ∀ segment ∈ path, Json.HasKey cs segment := by
  obtain ⟨ms, t, hblanks, hspelt, htree⟩ := TokenTree.spelt_of_read hread
  rcases TokenTree.hasKey_of_ofMembers? htree hstored with hkeys | hnil
  · exact fun segment hmem => ⟨_, _, t, rest, hblanks, hspelt, hkeys segment hmem⟩
  · exact absurd hnil TokenTree.not_stores_nil

/-! ### The segments of a path -/

namespace Token

theorem dotless_of_mem_segments {dotted : String} (h : segment ∈ segments dotted) :
    Dotless segment := by
  obtain ⟨piece, hpiece, rfl⟩ := List.mem_map.mp h
  rw [Dotless, String.toList_ofList]
  exact Text.not_mem_of_mem_pieces hpiece

end Token

/-! ### Trees that are built -/

namespace TokenTree

variable {allowed : String → Prop}

theorem Built.ordered (h : Built allowed tree) : (Token.group tree).Ordered := by
  induction h with
  | empty => exact Token.ordered_group_nil
  | insert _ path text ih => exact ih.insert path text
  | setValue _ _ text ih => exact ih.insertSorted trivial
  | setGroup _ _ _ ihtree ihinner => exact ihtree.insertSorted ihinner
  | merge _ _ ihtree ihother =>
    exact ordered_overlay _ (Token.ordered_group_iff.mp ihother).2 ihtree
  | erase _ segment ih => exact ih.erase
  | taken _ hmem ih => exact ih.child hmem
  | read hread _ => exact ordered_of_read hread

/-- A text without dots and escapes has no key with a dot. -/
theorem Built.of_read_plain {depth : Nat} {cs rest : List Char}
    (hread : TokenTree.read depth cs = .ok (tree, rest)) (hdot : '.' ∉ cs) (hescape : '\\' ∉ cs) :
    Built Token.Dotless tree :=
  .read hread fun _ hkey hmem => (hkey.mem_or_mem hmem).elim hdot hescape

/-- A segment in a built tree has no dot, unless it was given as a whole. -/
theorem Built.dotless_or_allowed (h : Built allowed tree) :
    ∀ {path : List String} {text : String}, tree.Stores path text →
      ∀ segment ∈ path, Token.Dotless segment ∨ allowed segment := by
  induction h with
  | empty => exact fun hstored => absurd hstored not_stores_nil
  | insert _ target written ih =>
    intro path text hstored segment hmem
    rcases Token.Stores.of_write (.of_entries hstored) with ⟨rfl, -⟩ | hstored
    · exact .inl (Token.dotless_of_mem_segments hmem)
    · exact ih hstored segment hmem
  | setValue _ hsegment written ih =>
    intro path text hstored segment hmem
    rcases Token.Stores.of_insertSorted hstored with ⟨rest, rfl, hvalue⟩ | hstored
    · obtain ⟨rfl, -⟩ := Token.stores_value_iff.mp hvalue
      exact .inr (List.mem_singleton.mp hmem ▸ hsegment)
    · exact ih hstored segment hmem
  | setGroup _ hsegment _ ihtree ihinner =>
    intro path text hstored segment hmem
    rcases Token.Stores.of_insertSorted hstored with ⟨rest, rfl, hinner⟩ | hstored
    · rcases List.mem_cons.mp hmem with rfl | hmem
      · exact .inr hsegment
      · exact ihinner hinner segment hmem
    · exact ihtree hstored segment hmem
  | merge _ _ ihtree ihother =>
    intro path text hstored segment hmem
    rcases stores_of_overlay _ hstored with hstored | hstored
    · exact ihother hstored segment hmem
    · exact ihtree hstored segment hmem
  | erase _ erased ih =>
    intro path text hstored segment hmem
    obtain ⟨s, token, rest, rfl, hentry, hstored⟩ := Token.stores_group_iff.mp hstored
    exact ih (.inside (Entries.mem_of_mem_erase hentry) hstored) segment hmem
  | taken _ hentry ih =>
    intro path text hstored segment hmem
    exact ih (.inside hentry hstored) segment (List.mem_cons_of_mem _ hmem)
  | read hread hkeys =>
    intro path text hstored segment hmem
    exact .inr (hkeys segment (hasKey_of_stores hread hstored segment hmem))

theorem path?_dollar {groups : TokenGroups} {property : String} (h : groups.get? property = none)
    (dotted : String) : TokenGroups.path? groups property ("$" ++ dotted) = some dotted := by
  have hchars : ("$" ++ dotted).toList = '$' :: dotted.toList := by simp
  simp [TokenGroups.path?, hchars, Scalar.sigil, h]

/-- In a sorted tree the value of a reference is the one stored at the segments of its path. -/
theorem resolve?_eq_some_iff (htree : (Token.group tree).Ordered) {groups : TokenGroups}
    {property reference : String} :
    tree.resolve? groups property reference = some text ↔
      ∃ dotted, groups.path? property reference = some dotted ∧
        tree.Stores (Token.segments dotted) text := by
  rw [resolve?, Option.bind_eq_some_iff]
  refine exists_congr fun dotted => and_congr_right fun _ => ?_
  rw [Stores, ← Token.at?_eq_some_value_iff htree, lookup, Option.bind_eq_some_iff]
  constructor
  · rintro ⟨token, hat, hvalue⟩
    cases token with
    | value v => exact hat.trans (congrArg (some <| Token.value ·) (Option.some.inj hvalue))
    | group es => cases hvalue
  · exact fun hat => ⟨_, hat, rfl⟩

/-- A value below segments without dots is reached by the segments joined with dots. -/
theorem resolve?_joinDots (htree : (Token.group tree).Ordered) (hstored : tree.Stores path text)
    (hpath : ∀ segment ∈ path, Token.Dotless segment) {groups : TokenGroups} {property : String}
    (hgroups : groups.get? property = none) :
    tree.resolve? groups property ("$" ++ Token.joinDots path) = some text := by
  have hne : path ≠ [] := by
    rintro rfl
    simp [Stores, Token.stores_group_iff] at hstored
  refine (resolve?_eq_some_iff htree).mpr ⟨_, path?_dollar hgroups _, ?_⟩
  rwa [Token.segments_joinDots hne hpath]

/-- What references reach in a tree that comes from the operations on trees. A reference has the
value that the tree stores at the segments of its path, none of which has a dot, and no other value.
So a value below segments without dots is reached, for a property without a group by the segments
joined with dots. Segments with dots come from nowhere but the segments that were given as a whole;
if none of these has one, every value is reached. -/
theorem resolve?_iff_stores {allowed : String → Prop} (h : Built allowed tree) :
    (∀ (groups : TokenGroups) (property reference text : String),
      tree.resolve? groups property reference = some text ↔
        ∃ dotted, groups.path? property reference = some dotted ∧
          (∀ segment ∈ Token.segments dotted, Token.Dotless segment) ∧
          tree.Stores (Token.segments dotted) text) ∧
    (∀ (path : List String) (text : String), tree.Stores path text →
      ((∀ segment ∈ path, Token.Dotless segment) ∨ ∀ segment, allowed segment →
        Token.Dotless segment) →
      ∀ (groups : TokenGroups) (property : String), groups.get? property = none →
        tree.resolve? groups property ("$" ++ Token.joinDots path) = some text) ∧
    ∀ (path : List String) (text : String), tree.Stores path text →
      ∀ segment ∈ path, Token.Dotless segment ∨ allowed segment := by
  refine ⟨?_, ?_, fun path text => h.dotless_or_allowed⟩
  · intro groups property reference text
    rw [resolve?_eq_some_iff h.ordered]
    refine exists_congr fun dotted => and_congr_right fun _ => ?_
    exact ⟨fun hstored => ⟨fun _ => Token.dotless_of_mem_segments, hstored⟩, And.right⟩
  · intro path text hstored hdotless groups property hgroups
    refine resolve?_joinDots h.ordered hstored ?_ hgroups
    rcases hdotless with hpath | hallowed
    · exact hpath
    · intro segment hmem
      exact (h.dotless_or_allowed hstored segment hmem).elim id (hallowed segment)

/-- A tree that is written at a path and then laid under one that is set, and one that is read. -/
theorem resolve?_iff_stores_spacing :
    let tree : TokenTree := merge (insert [] "spacing.small" "8px")
      (set [] "spacing" (.group (set [] "large" (.value "32px"))))
    let source := "\x7b\"spacing\": \x7b\"tiny\": \"2px\"\x7d\x7d"
    let given : TokenTree := [("spacing", .group [("tiny", .value "2px")])]
    Built Token.Dotless tree ∧ tree.Stores ["spacing", "small"] "8px" ∧
      Table.empty.get? "width" = (none : Option String) ∧
      tree.resolve? Table.empty "width" "$spacing.small" = some "8px" ∧
      TokenTree.ofJson source = .ok given ∧ Built Token.Dotless (merge tree given) ∧
      (merge tree given).Stores ["spacing", "tiny"] "2px" ∧
      (merge tree given).resolve? Table.empty "width" "$spacing.tiny" = some "2px" := by
  intro tree source given
  have hbuilt : Built Token.Dotless tree :=
    .merge (.insert .empty "spacing.small" "8px")
      (.setGroup .empty (by decide) (.setValue .empty (by decide) "32px"))
  have hstored : tree.Stores ["spacing", "small"] "8px" :=
    (Token.at?_eq_some_value_iff hbuilt.ordered).mp rfl
  have hpath : "$" ++ Token.joinDots ["spacing", "small"] = "$spacing.small" := by decide
  have hreached := (resolve?_iff_stores hbuilt).2.1 _ _ hstored (.inr fun _ => id) Table.empty
    "width" rfl
  have hread : TokenTree.ofJson source = .ok given := by decide +kernel
  obtain ⟨rest, htext⟩ := Json.Reader.exists_of_document_eq_ok hread
  have hgiven : Built Token.Dotless given :=
    .of_read_plain htext (by decide +kernel) (by decide +kernel)
  have hmerged := hbuilt.merge hgiven
  have htiny : (merge tree given).Stores ["spacing", "tiny"] "2px" :=
    (Token.at?_eq_some_value_iff hmerged.ordered).mp (by decide +kernel)
  have hpath' : "$" ++ Token.joinDots ["spacing", "tiny"] = "$spacing.tiny" := by decide
  have hreached' := (resolve?_iff_stores hmerged).2.1 _ _ htiny (.inr fun _ => id) Table.empty
    "width" rfl
  exact ⟨hbuilt, hstored, rfl, hpath ▸ hreached, hread, hmerged, htiny, hpath' ▸ hreached'⟩

/-- A value that is set at a segment with a dot is stored, but its reference has no value. -/
theorem resolve?_dotted_segment :
    let tree : TokenTree := set [] "a.b" (.value "v")
    Built (fun _ => True) tree ∧
      ¬ ∀ (path : List String) (text : String), tree.Stores path text →
        tree.resolve? Table.empty "width" ("$" ++ Token.joinDots path) = some text := by
  intro tree
  refine ⟨.setValue .empty trivial "v", fun h => ?_⟩
  have hstored : tree.Stores ["a.b"] "v" := .inside (List.mem_singleton.mpr rfl) .here
  have hmissed : tree.resolve? Table.empty "width" ("$" ++ Token.joinDots ["a.b"]) = none := by
    decide +kernel
  exact absurd (hmissed.symm.trans (h _ _ hstored)) nofun

end TokenTree

end StyleTree
