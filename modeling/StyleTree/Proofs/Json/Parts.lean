import StyleTree.Json.Reader

/-!
# Names, blanks and separators

What stands between the values of a document is read where it stands, and where something else
stands, the reader refuses the document for a fault of syntax.

## Main definitions

* `Broken`, `Misshapen` — a refusal for a fault of syntax, or of shape
* `Blanks`, `Separator` — the text between two parts, as a relation between the text before it and
  the text behind it

## Main results

* `Reader.name_cases`, `Reader.colon_cases`, `Reader.nextMember_cases` — a reader finds the part it
  looks for, or the document is broken
-/

namespace StyleTree

/-- A result that is changed afterwards is a result in the first place. -/
theorem exists_of_map_eq_ok {ε α β : Type} {f : α → β} {r : Except ε α} {b : β}
    (h : r.map f = .ok b) : ∃ a, r = .ok a ∧ f a = b := by
  cases r with
  | error e => cases h
  | ok a => exact ⟨a, rfl, Except.ok.inj h⟩

namespace Json

variable {α β : Type}

/-- A refusal for a fault of syntax. -/
def Broken (r : Except Fault α) : Prop :=
  ∃ fault, r = .error fault ∧ fault.cause.isShape = false

/-- A refusal for a fault of shape. -/
def Misshapen (r : Except Fault α) : Prop :=
  ∃ fault, r = .error fault ∧ fault.cause.isShape = true

theorem Broken.map {r : Except Fault α} (h : Broken r) (f : α → β) : Broken (r.map f) := by
  obtain ⟨fault, rfl, hcause⟩ := h
  exact ⟨fault, rfl, hcause⟩

theorem Misshapen.map {r : Except Fault α} (h : Misshapen r) (f : α → β) :
    Misshapen (r.map f) := by
  obtain ⟨fault, rfl, hcause⟩ := h
  exact ⟨fault, rfl, hcause⟩

/-- A refusal has the same reason wherever it is reported. -/
@[simp] theorem Fault.cause_settle (close : List Char → List Char) (fault : Fault) :
    (fault.settle close).cause = fault.cause := by
  cases fault <;> rfl

/-- Blanks at the start of `t`, with `u` behind them. -/
def Blanks (t u : List Char) : Prop :=
  ∃ blanks, (∀ c ∈ blanks, isSpace c) ∧ t = blanks ++ u

/-- What stands in front of a part of an array or object: blanks, and a comma if it is not the first
part. -/
inductive Separator : Bool → List Char → List Char → Prop where
  | first {t u : List Char} (hblanks : Blanks t u) : Separator true t u
  | next {t t' u : List Char} (hcomma : Blanks t (',' :: t')) (hblanks : Blanks t' u) :
    Separator false t u

variable {c : Char} {first : Bool} {blanks cs t u : List Char}

/-! ### Blanks -/

theorem skipSpace_append (h : ∀ c ∈ blanks, isSpace c) :
    skipSpace (blanks ++ cs) = skipSpace cs :=
  List.dropWhile_append_of_pos h

theorem skipSpace_cons (h : isSpace c = false) : skipSpace (c :: cs) = c :: cs := by
  rw [skipSpace, List.dropWhile_cons_of_neg (by simp [h])]

namespace Blanks

theorem refl (t : List Char) : Blanks t t :=
  ⟨[], fun _ hc => absurd hc List.not_mem_nil, rfl⟩

theorem trans {v : List Char} (h : Blanks t u) (h' : Blanks u v) : Blanks t v := by
  obtain ⟨blanks, hblanks, rfl⟩ := h
  obtain ⟨blanks', hblanks', rfl⟩ := h'
  refine ⟨blanks ++ blanks', fun c hc => ?_, (List.append_assoc _ _ _).symm⟩
  exact (List.mem_append.mp hc).elim (hblanks c) (hblanks' c)

theorem of_skipSpace (h : skipSpace t = u) : Blanks t u :=
  ⟨t.takeWhile isSpace, List.all_eq_true.mp List.all_takeWhile,
    h ▸ List.takeWhile_append_dropWhile.symm⟩

theorem skipSpace_eq (h : Blanks t u) : skipSpace t = skipSpace u := by
  obtain ⟨blanks, hblanks, rfl⟩ := h
  exact skipSpace_append hblanks

theorem skipSpace_eq_cons (h : Blanks t (c :: u)) (hc : isSpace c = false) :
    skipSpace t = c :: u :=
  h.skipSpace_eq.trans (skipSpace_cons hc)

end Blanks

namespace Reader

/-! ### Names -/

theorem name_append (a : α) (letters : List Char) : name a letters (letters ++ u) = .ok (a, u) := by
  induction letters with
  | nil => rfl
  | cons letter letters ih => rw [List.cons_append, name, if_pos rfl, ih]

theorem name_cases (a : α) (letters : List Char) (t : List Char) :
    (∃ u, t = letters ++ u) ∨ Broken (name a letters t) := by
  induction letters generalizing t with
  | nil => exact .inl ⟨t, rfl⟩
  | cons letter letters ih =>
    cases t with
    | nil => exact .inr ⟨_, rfl, rfl⟩
    | cons c t =>
      by_cases hc : c = letter
      · subst hc
        rw [name, if_pos rfl]
        exact (ih t).imp_left fun ⟨u, hu⟩ => ⟨u, congrArg (c :: ·) hu⟩
      · rw [name, if_neg hc]
        exact .inr ⟨_, rfl, rfl⟩

/-! ### Colons -/

theorem colon_eq (h : Blanks t (':' :: u)) : colon t = .ok ((), u) := by
  rw [colon, h.skipSpace_eq_cons rfl]
  rfl

theorem colon_cases (t : List Char) : (∃ u, Blanks t (':' :: u)) ∨ Broken (colon t) := by
  unfold colon
  cases ht : skipSpace t with
  | nil => exact .inr ⟨_, rfl, rfl⟩
  | cons c u =>
    dsimp only
    by_cases hc : c = ':'
    · exact .inl ⟨u, .of_skipSpace (hc ▸ ht)⟩
    · rw [if_neg hc]
      exact .inr ⟨_, rfl, rfl⟩

/-! ### Members -/

theorem nextMember_close (h : Blanks t ('\x7d' :: u)) :
    nextMember first t = .ok (.close ('\x7d' :: u)) := by
  rw [nextMember, h.skipSpace_eq_cons rfl]
  rfl

theorem nextMember_key (h : Separator first t ('"' :: u)) :
    nextMember first t = .ok (.key u) := by
  cases h with
  | first hblanks =>
    rw [nextMember, hblanks.skipSpace_eq_cons rfl]
    rfl
  | next hcomma hblanks =>
    rw [nextMember, hcomma.skipSpace_eq_cons rfl]
    dsimp only
    rw [if_neg (by decide), if_neg (by decide), if_pos rfl, hblanks.skipSpace_eq_cons rfl]
    rfl

/-- An object ends, or goes on with a key, or it is broken here. -/
theorem nextMember_cases (first : Bool) (t : List Char) :
    (∃ u, Blanks t ('\x7d' :: u)) ∨ (∃ u, Separator first t ('"' :: u)) ∨
      Broken (nextMember first t) := by
  unfold nextMember
  cases ht : skipSpace t with
  | nil => exact .inr (.inr ⟨_, rfl, rfl⟩)
  | cons c u =>
    have hblanks : Blanks t (c :: u) := .of_skipSpace ht
    dsimp only
    by_cases hclose : c = '\x7d'
    · exact .inl ⟨u, hclose ▸ hblanks⟩
    rw [if_neg hclose]
    right
    cases first with
    | true =>
      by_cases hquote : c = '"'
      · exact .inl ⟨u, .first (hquote ▸ hblanks)⟩
      · rw [if_pos rfl, if_neg hquote]
        exact .inr ⟨_, rfl, rfl⟩
    | false =>
      rw [if_neg (by decide)]
      by_cases hcomma : c = ','
      · subst hcomma
        rw [if_pos rfl]
        cases hu : skipSpace u with
        | nil => exact .inr ⟨_, rfl, rfl⟩
        | cons d v =>
          dsimp only
          by_cases hquote : d = '"'
          · exact .inl ⟨v, .next hblanks (.of_skipSpace (hquote ▸ hu))⟩
          · rw [if_neg hquote]
            right
            -- A brace behind the comma and any other character are told apart by the cause only.
            split <;> exact ⟨_, rfl, rfl⟩
      · rw [if_neg hcomma]
        exact .inr ⟨_, rfl, rfl⟩

/-! ### Objects -/

section Objects

variable {σ : Type} {P : σ → Prop} {key : Reader String} {member : σ → String → Reader σ}
  {acc acc' : σ} {rest : List Char}
  (hmember : ∀ acc k cs acc' rest, P acc → member acc k cs = .ok (acc', rest) → P acc')

include hmember

/-- What each member keeps is kept by all members that are read. -/
theorem members_keeps (fuel : Nat) (first : Bool) (cs : List Char) (hacc : P acc)
    (h : members key member fuel first acc cs = .ok (acc', rest)) : P acc' := by
  induction fuel generalizing first acc cs with
  | zero => cases h
  | succ fuel ih =>
    rw [members] at h
    split at h
    · cases h
    · obtain ⟨rfl, -⟩ := Prod.mk.inj (Except.ok.inj h)
      exact hacc
    · split at h
      · cases h
      · split at h
        · cases h
        · next hread => exact ih false _ (hmember _ _ _ _ _ hacc hread) h

theorem object_keeps (hacc : P acc) (h : object key member acc cs = .ok (acc', rest)) : P acc' := by
  rw [object] at h
  split at h
  · cases h
  · next hread =>
    obtain ⟨rfl, -⟩ := Prod.mk.inj (Except.ok.inj h)
    exact members_keeps hmember _ true cs hacc hread

end Objects

/-! ### Documents -/

/-- A document is read by the reader of its value. -/
theorem exists_of_document_eq_ok {value : Reader α} {source : String} {a : α}
    (h : document value source = .ok a) : ∃ rest, value source.toList = .ok (a, rest) := by
  rw [document] at h
  split at h
  · cases h
  · next hread =>
    split at h
    · obtain rfl := Except.ok.inj h
      exact ⟨_, hread⟩
    · cases h

end Reader

end Json

end StyleTree
