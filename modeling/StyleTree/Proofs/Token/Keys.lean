import StyleTree.Proofs.Json.Soundness
import StyleTree.Token.Document

/-!
# The keys of a document of tokens

The segments of a token tree that is read come from the keys of the text. A key of a text is one of
an object in the value that the text spells, at whatever level; it stands in the text between
quotation marks, in front of a colon.

## Main definitions

* `Json.Value.HasKey`, `Json.HasKey` — the keys of the objects in a value, and in a text

## Main results

* `Json.Spelt.exists_keySpelt` — each key is spelt in front of a colon
* `Json.HasKey.mem_or_mem` — a character of a key stands in the text, unless something is escaped
* `TokenTree.spelt_of_read` — a tree that is read stands for the object that the text spells
-/

namespace StyleTree

open Json (Blanks Reader Spelt)

namespace Json

/-- An object in the value has the key, at whatever level. -/
inductive Value.HasKey : Value → String → Prop where
  | here {ms : List (String × Value)} {key : String} {v : Value} (hmem : (key, v) ∈ ms) :
    HasKey (.object ms) key
  | member {ms : List (String × Value)} {k key : String} {v : Value} (hmem : (k, v) ∈ ms)
    (hkey : HasKey v key) : HasKey (.object ms) key
  | element {vs : List Value} {key : String} {v : Value} (hmem : v ∈ vs) (hkey : HasKey v key) :
    HasKey (.list vs) key

/-- An object in the value at the start of the text has the key. -/
def HasKey (cs : List Char) (key : String) : Prop :=
  ∃ depth v t u, Blanks cs t ∧ Spelt depth (.value v) t u ∧ v.HasKey key

variable {c : Char} {key : String} {depth : Nat} {part : Part} {cs t u : List Char}

namespace Value

theorem hasKey_list_cons_iff {v : Value} {vs : List Value} :
    (list (v :: vs)).HasKey key ↔ v.HasKey key ∨ (list vs).HasKey key := by
  constructor
  · rintro (_ | _ | ⟨hmem, hkey⟩)
    rcases List.mem_cons.mp hmem with rfl | hmem
    · exact .inl hkey
    · exact .inr (.element hmem hkey)
  · rintro (hkey | _ | _ | ⟨hmem, hkey⟩)
    · exact .element List.mem_cons_self hkey
    · exact .element (List.mem_cons_of_mem v hmem) hkey

theorem hasKey_object_cons_iff {k : String} {v : Value} {ms : List (String × Value)} :
    (object ((k, v) :: ms)).HasKey key ↔
      key = k ∨ v.HasKey key ∨ (object ms).HasKey key := by
  constructor
  · rintro (hmem | ⟨hmem, hkey⟩ | _)
    · rcases List.mem_cons.mp hmem with heq | hmem
      · exact .inl (Prod.mk.inj heq).1
      · exact .inr (.inr (.here hmem))
    · rcases List.mem_cons.mp hmem with heq | hmem
      · obtain ⟨rfl, rfl⟩ := Prod.mk.inj heq
        exact .inr (.inl hkey)
      · exact .inr (.inr (.member hmem hkey))
  · rintro (rfl | hkey | hmem | ⟨hmem, hkey⟩ | _)
    · exact .here List.mem_cons_self
    · exact .member List.mem_cons_self hkey
    · exact .here (List.mem_cons_of_mem _ hmem)
    · exact .member (List.mem_cons_of_mem _ hmem) hkey

end Value

/-- A value, or what the rest of an array or object would be if nothing stood in front. -/
def Part.toValue : Part → Value
  | .value v => v
  | .elements _ vs => .list vs
  | .members _ ms => .object ms

/-- A key of a part is spelt in front of a colon. -/
theorem Spelt.exists_keySpelt (h : Spelt depth part t u) (hkey : part.toValue.HasKey key) :
    ∃ first t' u', t' <:+ t ∧ KeySpelt first key t' u' := by
  induction h with
  | name hname => cases hname <;> cases hkey
  | number | text => cases hkey
  | list _ ih | object _ ih =>
    obtain ⟨first, t', u', hsuffix, hspelt⟩ := ih hkey
    exact ⟨first, t', u', hsuffix.trans (List.suffix_cons _ _), hspelt⟩
  | endElements =>
    -- What is left of an array at its end has no more keys.
    obtain _ | _ | ⟨hmem, -⟩ := hkey
    exact absurd hmem List.not_mem_nil
  | endMembers =>
    obtain hmem | ⟨hmem, -⟩ | _ := hkey
    · exact absurd hmem List.not_mem_nil
    · exact absurd hmem List.not_mem_nil
  | element hfront hvalue _ ihvalue ihrest =>
    rcases Value.hasKey_list_cons_iff.mp hkey with hkey | hkey
    · obtain ⟨first, t', u', hsuffix, hspelt⟩ := ihvalue hkey
      exact ⟨first, t', u', hsuffix.trans hfront.suffix, hspelt⟩
    · obtain ⟨first, t', u', hsuffix, hspelt⟩ := ihrest hkey
      exact ⟨first, t', u', hsuffix.trans (hvalue.suffix.trans hfront.suffix), hspelt⟩
  | member hspelt hblanks hvalue _ ihvalue ihrest =>
    -- It is the key of this member, or stands in its value, or behind it.
    have hfront := hblanks.suffix.trans ((List.suffix_cons _ _).trans hspelt.suffix)
    rcases Value.hasKey_object_cons_iff.mp hkey with rfl | hkey | hkey
    · exact ⟨_, _, _, List.suffix_rfl, hspelt⟩
    · obtain ⟨first, t', u', hsuffix, hspelt⟩ := ihvalue hkey
      exact ⟨first, t', u', hsuffix.trans hfront, hspelt⟩
    · obtain ⟨first, t', u', hsuffix, hspelt⟩ := ihrest hkey
      exact ⟨first, t', u', hsuffix.trans (hvalue.suffix.trans hfront), hspelt⟩

/-- A character of a text stands in the spelling as it is, or it is escaped there. -/
theorem TextSpelt.mem_or_mem (h : TextSpelt t cs u) (hc : c ∈ cs) : c ∈ t ∨ '\\' ∈ t := by
  induction h with
  | close => exact absurd hc List.not_mem_nil
  | char hchar _ ih =>
    rcases List.mem_cons.mp hc with rfl | hc
    · cases hchar with
      | plain => exact .inl List.mem_cons_self
      | short | unit | pair => exact .inr List.mem_cons_self
    · exact (ih hc).imp (hchar.suffix.subset ·) (hchar.suffix.subset ·)

/-- A character of a key stands in the text as it is, or something is escaped there. -/
theorem HasKey.mem_or_mem (h : HasKey cs key) (hc : c ∈ key.toList) : c ∈ cs ∨ '\\' ∈ cs := by
  obtain ⟨depth, v, t, u, hblanks, hspelt, hkey⟩ := h
  obtain ⟨first, t', u', hsuffix, hfront, htext, -⟩ := hspelt.exists_keySpelt hkey
  have hsub := ((List.suffix_cons _ _).trans hfront.suffix).trans (hsuffix.trans hblanks.suffix)
  exact (htext.mem_or_mem hc).imp (hsub.subset ·) (hsub.subset ·)

end Json

namespace TokenTree

variable {depth : Nat} {tree : TokenTree} {cs rest : List Char}

/-- A member is written into the tree if its value stands for a token. -/
theorem takesValue_member (depth : Nat) :
    Reader.TakesValue depth (member depth) fun tree key v =>
      (Token.ofValue? v).map fun token => Entries.insertSorted key token tree := by
  intro tree key t tree' u h
  rw [member] at h
  split at h
  · cases h
  · next t' hcolon =>
    split at h
    · cases h
    · next v u' hread =>
      split at h
      · cases h
      · next token htoken =>
        obtain ⟨rfl, rfl⟩ := Prod.mk.inj (Except.ok.inj h)
        exact ⟨v, t', Reader.blanks_of_colon hcolon, hread, congrArg (Option.map _) htoken⟩

theorem ofMembers?_eq_foldlM (ms : List (String × Json.Value)) (tree : TokenTree) :
    ofMembers? tree ms = ms.foldlM (fun tree m =>
      (Token.ofValue? m.2).map fun token => Entries.insertSorted m.1 token tree) tree := by
  induction ms generalizing tree with
  | nil => rfl
  | cons m ms ih =>
    obtain ⟨key, v⟩ := m
    rw [ofMembers?, List.foldlM_cons]
    cases Token.ofValue? v with
    | none => rfl
    | some token => exact ih _

/-- A tree that is read is what the members of an object at the start of the text stand for. -/
theorem spelt_of_read (h : read depth cs = .ok (tree, rest)) :
    ∃ ms t, Blanks cs t ∧ Spelt (depth + 1) (.value (.object ms)) t rest ∧
      ofMembers? [] ms = some tree := by
  rw [read] at h
  split at h
  · cases h
  · next c t hcs =>
    split at h
    · next hbrace =>
      obtain ⟨ms, hspelt, hfold⟩ :=
        Reader.spelt_of_object (Reader.spelt_of_value depth) (takesValue_member depth) h
      refine ⟨ms, c :: t, .of_skipSpace hcs, ?_, (ofMembers?_eq_foldlM ms []).trans hfold⟩
      rw [hbrace]
      exact .object hspelt
    · cases h

end TokenTree

end StyleTree
