import StyleTree.Proofs.Style.Values

/-!
# What the reader says of any text

A text is read value by value, and the first fault counts. So there are three verdicts: the text
begins with what stands for a style value and is read as that; or the reader meets, before any fault
of syntax, a value that stands for nothing in a style tree; or it meets a fault of syntax. What is
behind the first fault is not looked at.

## Main definitions

* `Misplaced` — a text in which a misplaced value comes before any fault of syntax
* `Style.Verdict`, `Sheet.Verdict` — the three verdicts on a value and on the members of an object

## Main results

* `Misplaced.refuses` — a misplaced value is refused for its shape
* `Style.verdict`, `Sheet.verdict` — there is no fourth verdict
-/

namespace StyleTree

open Json (Blanks Broken IsName KeySpelt Misshapen Reader Spelt)

/-- What is read next: a value, or a member of an object, which may be the first one. -/
inductive Spot where
  | value
  | member (first : Bool)

/-- A text in which a value that stands for nothing in a style tree comes before any fault of
syntax: a name, or an array if it may be opened here. -/
inductive Misplaced : Nat → Spot → List Char → Prop where
  | name {depth : Nat} {v : Json.Value} {c : Char} {letters t u : List Char}
    (hname : IsName v c letters) (hblanks : Blanks t (c :: (letters ++ u))) :
    Misplaced depth .value t
  | list {depth : Nat} {t u : List Char} (hblanks : Blanks t ('[' :: u)) :
    Misplaced (depth + 1) .value t
  | object {depth : Nat} {t u : List Char} (hblanks : Blanks t ('\x7b' :: u))
    (hmember : Misplaced depth (.member true) u) : Misplaced (depth + 1) .value t
  | here {depth : Nat} {first : Bool} {k : String} {t u : List Char} (hkey : KeySpelt first k t u)
    (hvalue : Misplaced depth .value u) : Misplaced depth (.member first) t
  | later {depth : Nat} {first : Bool} {k : String} {v : Json.Value} {s : Style}
    {t t₁ t₂ u : List Char} (hkey : KeySpelt first k t t₁) (hblanks : Blanks t₁ t₂)
    (hspelt : Spelt depth (.value v) t₂ u) (hstyle : Style.ofValue? v = some s)
    (hrest : Misplaced depth (.member false) u) : Misplaced depth (.member first) t

variable {depth fuel : Nat} {first : Bool} {k : String} {c : Char} {v : Json.Value} {s : Style}
  {acc : Sheet} {value : Reader Style} {letters cs t t' u : List Char}

theorem Misplaced.of_blanks (hblanks : Blanks t t') (h : Misplaced depth .value t') :
    Misplaced depth .value t := by
  cases h with
  | name hname hblanks' => exact .name hname (hblanks.trans hblanks')
  | list hblanks' => exact .list (hblanks.trans hblanks')
  | object hblanks' hmember => exact .object (hblanks.trans hblanks') hmember

/-- A number in front of a further member is complete. -/
theorem Misplaced.ends_member (h : Misplaced depth (.member false) t) : Json.Numeral.Ends t := by
  cases h with
  | here hkey _ => exact hkey.ends
  | later hkey _ _ _ _ => exact hkey.ends

/-! ### Refusals -/

/-- The refusal of a value of the wrong kind once it is read; a fault of the value counts first. -/
def refused {α β : Type} (wanted : Json.Wanted) (found : β → Json.Found) :
    Except Json.Fault (β × List Char) → Except Json.Fault (α × List Char)
  | .error fault => .error fault
  | .ok (b, rest) => .error (.before (.wrongKind (found b) wanted) rest)

section Refused

variable {α β : Type} {wanted : Json.Wanted} {name : β → Json.Found}
  {r : Except Json.Fault (β × List Char)}

theorem misshapen_refused {b : β} (h : r = .ok (b, cs)) :
    Misshapen (refused (α := α) wanted name r) := by
  subst h
  exact ⟨_, rfl, rfl⟩

theorem broken_refused (h : Broken r) : Broken (refused (α := α) wanted name r) := by
  obtain ⟨fault, rfl, hsyntax⟩ := h
  exact ⟨fault, rfl, hsyntax⟩

end Refused

/-- A name is refused where it ends. -/
theorem Style.read_name (depth : Nat) (hname : IsName v c letters) (cs : List Char) :
    ∃ found, Style.read depth (c :: cs) =
      refused .styleValue id (Reader.name found letters cs) := by
  cases hname with
  | null =>
    refine ⟨.null, ?_⟩
    rw [Style.read.eq_def, Json.skipSpace_cons rfl]
    simp only [↓reduceIte]
    cases Reader.name Json.Found.null ['u', 'l', 'l'] cs <;> rfl
  | true =>
    refine ⟨.boolean true, ?_⟩
    rw [Style.read.eq_def, Json.skipSpace_cons rfl]
    simp only [Char.reduceEq, ↓reduceIte]
    cases Reader.name (Json.Found.boolean true) ['r', 'u', 'e'] cs <;> rfl
  | false =>
    refine ⟨.boolean false, ?_⟩
    rw [Style.read.eq_def, Json.skipSpace_cons rfl]
    simp only [Char.reduceEq, ↓reduceIte]
    cases Reader.name (Json.Found.boolean false) ['a', 'l', 's', 'e'] cs <;> rfl

namespace Sheet

/-- A fault of the members of an object is a fault of the object. -/
theorem misshapen_object
    (h : Misshapen (Reader.members Reader.text (member value) (cs.length + 1) true [] cs)) :
    Misshapen (Reader.object Reader.text (member value) [] cs) := by
  obtain ⟨fault, hfault, hshape⟩ := h
  rw [Reader.object, hfault]
  exact ⟨_, rfl, by rwa [Json.Fault.cause_settle]⟩

theorem broken_object
    (h : Broken (Reader.members Reader.text (member value) (cs.length + 1) true [] cs)) :
    Broken (Reader.object Reader.text (member value) [] cs) := by
  obtain ⟨fault, hfault, hsyntax⟩ := h
  rw [Reader.object, hfault]
  exact ⟨_, rfl, by rwa [Json.Fault.cause_settle]⟩

end Sheet

/-- The reader of what is next refuses it for its shape. -/
def Refuses (depth : Nat) (t : List Char) : Spot → Prop
  | .value => Misshapen (Style.read depth t)
  | .member first => ∀ acc fuel, t.length < fuel →
    Misshapen (Reader.members Reader.text (Sheet.member (Style.read depth)) fuel first acc t)

/-- A misplaced value is refused where it stands, whatever follows it. -/
theorem Misplaced.refuses {spot : Spot} (h : Misplaced depth spot t) : Refuses depth t spot := by
  induction h with
  | name hname hblanks =>
    obtain ⟨found, hread⟩ := Style.read_name _ hname _
    rw [Refuses, Style.read_of_blanks hblanks, hread]
    exact misshapen_refused (Reader.name_append _ _)
  | list hblanks =>
    rw [Refuses, Style.read_of_blanks hblanks, Style.read.eq_def, Json.skipSpace_cons rfl]
    exact ⟨_, rfl, rfl⟩
  | object hblanks _ ih =>
    rw [Refuses, Style.read_of_blanks hblanks, Style.read_brace]
    exact (Sheet.misshapen_object (ih [] _ (Nat.lt_succ_self _))).map _
  | here hkey _ ih =>
    intro acc fuel hfuel
    obtain ⟨fuel, rfl⟩ := Nat.exists_eq_succ_of_ne_zero (Nat.ne_zero_of_lt hfuel)
    obtain ⟨fault, hfault, hshape⟩ := ih
    exact ⟨fault, Sheet.members_of_key_error hkey hfault, hshape⟩
  | later hkey hblanks hspelt hstyle hrest ih =>
    -- The member in front is read; what it is written over does not matter for what follows.
    intro acc fuel hfuel
    obtain ⟨fuel, rfl⟩ := Nat.exists_eq_succ_of_ne_zero (Nat.ne_zero_of_lt hfuel)
    have hread := (Style.read_of_blanks hblanks).trans
      (readAs_of_spelt hspelt _ hstyle hrest.ends_member)
    have hlength := (hspelt.suffix.trans hblanks.suffix).length_le
    have hshorter := hkey.length_lt
    rw [Sheet.members_of_key hkey hread]
    exact ih _ fuel (by omega)

/-! ### The three verdicts -/

/-- The verdicts on a value: it is read as what it stands for, a value is misplaced, or the text is
broken. -/
def Style.Verdict (depth : Nat) (t : List Char) : Prop :=
  (∃ v s t' u, Blanks t t' ∧ Spelt depth (.value v) t' u ∧ Style.ofValue? v = some s ∧
      Style.read depth t = .ok (s, u)) ∨
    Misplaced depth .value t ∨ Broken (Style.read depth t)

/-- The verdicts on the members of an object. -/
def Sheet.Verdict (depth fuel : Nat) (first : Bool) (acc : Sheet) (t : List Char) : Prop :=
  (∃ ms es u, Spelt depth (.members first ms) t u ∧ Sheet.entries? ms = some es ∧
      Reader.members Reader.text (Sheet.member (Style.read depth)) fuel first acc t =
        .ok (Entries.merge acc es, '\x7d' :: u)) ∨
    Misplaced depth (.member first) t ∨
    Broken (Reader.members Reader.text (Sheet.member (Style.read depth)) fuel first acc t)

namespace Sheet

/-- An object ends, or goes on with a member, or it is broken here. -/
theorem keySpelt_cases (value : Reader Style) (first : Bool) (t : List Char) :
    (∃ u, Blanks t ('\x7d' :: u)) ∨ (∃ k u, KeySpelt first k t u) ∨
      ∀ acc fuel, Broken (Reader.members Reader.text (member value) (fuel + 1) first acc t) := by
  rcases Reader.nextMember_cases first t with hclose | ⟨t₁, hfront⟩ | ⟨fault, hfault, hsyntax⟩
  · exact .inl hclose
  · right
    rcases Reader.text_cases t₁ with ⟨k, t₂, htext⟩ | ⟨fault, hfault, hsyntax⟩
    · rcases Reader.colon_cases t₂ with ⟨u, hcolon⟩ | ⟨fault, hfault, hsyntax⟩
      · exact .inl ⟨k, u, hfront, htext, hcolon⟩
      · right
        intro acc fuel
        refine ⟨fault, Reader.members_of_error hfront htext ?_, hsyntax⟩
        rw [member, hfault]
    · right
      intro acc fuel
      rw [Reader.members, Reader.nextMember_key hfront]
      dsimp only
      rw [hfault]
      exact ⟨fault, rfl, hsyntax⟩
  · refine .inr (.inr fun acc fuel => ?_)
    rw [Reader.members, hfault]
    exact ⟨fault, rfl, hsyntax⟩

/-- If there are three verdicts on values, there are three on members. -/
theorem verdict_of_values (hvalue : ∀ t, Style.Verdict depth t) (fuel : Nat) :
    ∀ (first : Bool) (acc : Sheet) (t : List Char), Sheet.Verdict depth fuel first acc t := by
  -- The members behind the first one are read with less fuel and over one member more.
  induction fuel with
  | zero => exact fun _ _ _ => .inr (.inr ⟨_, rfl, rfl⟩)
  | succ fuel ih =>
    intro first acc t
    rcases keySpelt_cases (Style.read depth) first t with ⟨u, hclose⟩ | ⟨k, t₁, hkey⟩ | hbroken
    · exact .inl ⟨[], [], u, .endMembers hclose, rfl, members_of_close hclose⟩
    · rcases hvalue t₁ with ⟨v, s, t₂, t₃, hblanks, hspelt, hstyle, hread⟩ | hmisplaced |
        ⟨fault, hfault, hsyntax⟩
      · -- The value is read, so the verdict on the members behind it decides.
        rw [Sheet.Verdict, members_of_key hkey hread]
        rcases ih false (Entries.insert k s acc) t₃ with ⟨ms, es, u, hrest, hes, hread⟩ |
          hmisplaced | hbroken
        · have hentries : entries? ((k, v) :: ms) = some ((k, s) :: es) :=
            entries?_cons_eq_some_iff.mpr ⟨s, es, hstyle, hes, rfl⟩
          exact .inl ⟨(k, v) :: ms, (k, s) :: es, u, .member hkey hblanks hspelt hrest, hentries,
            hread⟩
        · exact .inr (.inl (.later hkey hblanks hspelt hstyle hmisplaced))
        · exact .inr (.inr hbroken)
      · exact .inr (.inl (.here hkey hmisplaced))
      · exact .inr (.inr ⟨fault, members_of_key_error hkey hfault, hsyntax⟩)
    · exact .inr (.inr (hbroken acc fuel))

end Sheet

namespace Style

theorem Verdict.of_blanks (hblanks : Blanks t t') (h : Verdict depth t') : Verdict depth t := by
  rcases h with ⟨v, s, t₁, u, hblanks', hspelt, hstyle, hread⟩ | hmisplaced | hbroken
  · exact .inl ⟨v, s, t₁, u, hblanks.trans hblanks', hspelt, hstyle,
      (read_of_blanks hblanks).trans hread⟩
  · exact .inr (.inl (hmisplaced.of_blanks hblanks))
  · exact .inr (.inr (by rwa [read_of_blanks hblanks]))

theorem verdict_name (hname : IsName v c letters) : Verdict depth (c :: cs) := by
  obtain ⟨found, hread⟩ := read_name depth hname cs
  rcases Reader.name_cases found letters cs with ⟨u, rfl⟩ | hbroken
  · exact .inr (.inl (.name hname (.refl _)))
  · exact .inr (.inr (hread ▸ broken_refused hbroken))

theorem verdict_number (hc : c = '-' ∨ c.isDigit) : Verdict depth (c :: cs) := by
  rcases Json.Numeral.read_cases (c :: cs) with ⟨n, u, hread⟩ | hbroken
  · obtain ⟨f, hchars, -, hvalue⟩ := Json.Numeral.read_eq_ok_iff.mp hread
    refine .inl ⟨.number n, .scalar (.number n.toNumber), c :: cs, u, .refl _, ?_, rfl, ?_⟩
    · exact hchars ▸ .number hvalue
    · rw [read_numeral hc, hread]
      rfl
  · exact .inr (.inr (read_numeral hc ▸ hbroken.map _))

theorem verdict_text : Verdict depth ('"' :: cs) := by
  rcases Reader.text_cases cs with ⟨s, u, htext⟩ | hbroken
  · refine .inl ⟨.text s, .scalar (.text s), '"' :: cs, u, .refl _, .text htext, rfl, ?_⟩
    rw [read_quote, Reader.text_eq htext]
    rfl
  · exact .inr (.inr (read_quote ▸ hbroken.map _))

theorem verdict_object (h : ∀ t, Verdict depth t) : Verdict (depth + 1) ('\x7b' :: cs) := by
  rcases Sheet.verdict_of_values h (cs.length + 1) true [] cs with ⟨ms, es, u, hspelt, hes, hread⟩ |
    hmisplaced | hbroken
  · refine .inl ⟨.object ms, .scope (Entries.settled es), '\x7b' :: cs, u, .refl _,
      .object hspelt, congrArg (Option.map _) hes, ?_⟩
    rw [read_brace, Sheet.object_of_members hread, ← Entries.ofList_eq_settled]
    rfl
  · exact .inr (.inl (.object (.refl _) hmisplaced))
  · exact .inr (.inr (read_brace ▸ (Sheet.broken_object hbroken).map _))

/-- Only arrays and objects look at the depth that is left. -/
theorem verdict_of_brackets (hlist : ∀ cs, Verdict depth ('[' :: cs))
    (hobject : ∀ cs, Verdict depth ('\x7b' :: cs)) (t : List Char) : Verdict depth t := by
  cases ht : Json.skipSpace t with
  | nil =>
    refine .of_blanks (.of_skipSpace ht) (.inr (.inr ?_))
    rw [Style.read.eq_def]
    exact ⟨_, rfl, rfl⟩
  | cons c cs =>
    have hblanks : Blanks t (c :: cs) := .of_skipSpace ht
    have hspace : Json.skipSpace (c :: cs) = c :: cs := hblanks.skipSpace_eq ▸ ht
    refine .of_blanks hblanks ?_
    cases Json.start c with
    | name hname => exact verdict_name hname
    | number hnumber => exact verdict_number hnumber
    | quote => exact verdict_text
    | bracket => exact hlist cs
    | brace => exact hobject cs
    | other hnull htrue hfalse hnumber hquote hbracket hbrace =>
      -- No value starts with any other character.
      refine .inr (.inr ?_)
      rw [Style.read.eq_def, hspace]
      dsimp only
      rw [if_neg hnull, if_neg htrue, if_neg hfalse, if_neg hnumber, if_neg hquote,
        if_neg hbracket, if_neg hbrace]
      exact ⟨_, rfl, rfl⟩

/-- There are no other verdicts on a value. -/
theorem verdict (depth : Nat) : ∀ t, Verdict depth t := by
  -- With no depth left, both kinds of brackets are a fault of syntax.
  induction depth with
  | zero =>
    refine verdict_of_brackets (fun cs => .inr (.inr ?_)) fun cs => .inr (.inr ?_)
    · rw [Style.read.eq_def, Json.skipSpace_cons rfl]
      exact ⟨_, rfl, rfl⟩
    · exact ⟨_, read_brace_zero, rfl⟩
  | succ depth ih =>
    exact verdict_of_brackets (fun cs => .inr (.inl (.list (.refl _)))) fun cs => verdict_object ih

end Style

/-- There are no other verdicts on the members of an object. -/
theorem Sheet.verdict (depth fuel : Nat) (first : Bool) (acc : Sheet) (t : List Char) :
    Sheet.Verdict depth fuel first acc t :=
  verdict_of_values (Style.verdict depth) fuel first acc t

end StyleTree
