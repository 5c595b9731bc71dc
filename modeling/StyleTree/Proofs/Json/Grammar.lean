import StyleTree.Json.Value
import StyleTree.Proofs.Json.Escapes
import StyleTree.Proofs.Json.Form

/-!
# The grammar of documents

A well-formed document spells one JSON value, with blanks before and behind it. The grammar is
stated by itself, without a reader: what a part of a document stands for, and which text is left
behind it. Arrays and objects may stand inside each other up to a bound.

## Main definitions

* `KeySpelt` — a key of an object with its colon
* `IsName` — the values that are written as a name
* `Part`, `Spelt` — a value, or the rest of an array or object, at the start of a text
* `IsDocument` — a text that spells a value and nothing else
* `Start` — the characters that a value can start with, and the others

## Main results

* `Spelt.suffix` — a part takes the front of a text off
* `Spelt.ends_members` — a number before the rest of an object is complete
-/

namespace StyleTree.Json

/-- The key `k` with what stands in front of it and the colon behind it, before `u`. -/
inductive KeySpelt : Bool → String → List Char → List Char → Prop where
  | mk {first : Bool} {k : String} {t t₁ t₂ u : List Char} (hfront : Separator first t ('"' :: t₁))
    (htext : TextSpelt t₁ k.toList t₂) (hcolon : Blanks t₂ (':' :: u)) : KeySpelt first k t u

/-- The three values that are written as a name, each with the first letter and the others. -/
inductive IsName : Value → Char → List Char → Prop where
  | null : IsName .null 'n' ['u', 'l', 'l']
  | true : IsName (.boolean true) 't' ['r', 'u', 'e']
  | false : IsName (.boolean false) 'f' ['a', 'l', 's', 'e']

/-- A part of a document: a value, or what is left of an array or object with its closing bracket.
The flag says whether nothing of the array or object stands in front. -/
inductive Part where
  | value (v : Value)
  | elements (first : Bool) (vs : List Value)
  | members (first : Bool) (ms : List (String × Value))

/-- The part at the start of a text, with `u` behind it, and with at most `depth` arrays and objects
inside each other. -/
inductive Spelt : Nat → Part → List Char → List Char → Prop where
  | name {depth : Nat} {v : Value} {c : Char} {letters u : List Char} (hname : IsName v c letters) :
    Spelt depth (.value v) (c :: (letters ++ u)) u
  | number {depth : Nat} {f : Numeral.Form} {n : Numeral} {u : List Char}
    (hvalue : f.value? = some n) : Spelt depth (.value (.number n)) (f.chars ++ u) u
  | text {depth : Nat} {s : String} {t u : List Char} (htext : TextSpelt t s.toList u) :
    Spelt depth (.value (.text s)) ('"' :: t) u
  | list {depth : Nat} {vs : List Value} {t u : List Char}
    (helements : Spelt depth (.elements true vs) t u) :
    Spelt (depth + 1) (.value (.list vs)) ('[' :: t) u
  | object {depth : Nat} {ms : List (String × Value)} {t u : List Char}
    (hmembers : Spelt depth (.members true ms) t u) :
    Spelt (depth + 1) (.value (.object ms)) ('\x7b' :: t) u
  | endElements {depth : Nat} {first : Bool} {t u : List Char} (hclose : Blanks t (']' :: u)) :
    Spelt depth (.elements first []) t u
  | element {depth : Nat} {first : Bool} {v : Value} {vs : List Value} {t t₁ t₂ u : List Char}
    (hfront : Separator first t t₁) (hvalue : Spelt depth (.value v) t₁ t₂)
    (hrest : Spelt depth (.elements false vs) t₂ u) : Spelt depth (.elements first (v :: vs)) t u
  | endMembers {depth : Nat} {first : Bool} {t u : List Char} (hclose : Blanks t ('\x7d' :: u)) :
    Spelt depth (.members first []) t u
  | member {depth : Nat} {first : Bool} {k : String} {v : Value} {ms : List (String × Value)}
    {t t₁ t₂ t₃ u : List Char} (hkey : KeySpelt first k t t₁) (hblanks : Blanks t₁ t₂)
    (hvalue : Spelt depth (.value v) t₂ t₃) (hrest : Spelt depth (.members false ms) t₃ u) :
    Spelt depth (.members first ((k, v) :: ms)) t u

/-- A text that spells a value, with at most `depth` arrays and objects inside each other, and holds
nothing else but blanks. -/
def IsDocument (depth : Nat) (v : Value) (cs : List Char) : Prop :=
  ∃ t u, Blanks cs t ∧ Spelt depth (.value v) t u ∧ Blanks u []

variable {first : Bool} {depth : Nat} {part : Part} {ms : List (String × Value)} {k : String}
  {c : Char} {cs t t' u : List Char}

/-! ### How a value starts -/

/-- What the first character of a text says of a value there. -/
inductive Start : Char → Prop where
  | name {v : Value} {c : Char} {letters : List Char} (hname : IsName v c letters) : Start c
  | number {c : Char} (hnumber : c = '-' ∨ c.isDigit) : Start c
  | quote : Start '"'
  | bracket : Start '['
  | brace : Start '\x7b'
  | other {c : Char} (hnull : c ≠ 'n') (htrue : c ≠ 't') (hfalse : c ≠ 'f')
    (hnumber : ¬ (c = '-' ∨ c.isDigit)) (hquote : c ≠ '"') (hbracket : c ≠ '[')
    (hbrace : c ≠ '\x7b') : Start c

theorem start (c : Char) : Start c := by
  by_cases hnull : c = 'n'
  · exact hnull ▸ .name .null
  by_cases htrue : c = 't'
  · exact htrue ▸ .name .true
  by_cases hfalse : c = 'f'
  · exact hfalse ▸ .name .false
  by_cases hnumber : c = '-' ∨ c.isDigit
  · exact .number hnumber
  by_cases hquote : c = '"'
  · exact hquote ▸ .quote
  by_cases hbracket : c = '['
  · exact hbracket ▸ .bracket
  by_cases hbrace : c = '\x7b'
  · exact hbrace ▸ .brace
  exact .other hnull htrue hfalse hnumber hquote hbracket hbrace

/-- A number does not start with a blank, and not like a value of another sort. -/
theorem ne_of_number (hc : c = '-' ∨ c.isDigit) :
    isSpace c = false ∧ c ≠ 'n' ∧ c ≠ 't' ∧ c ≠ 'f' ∧ c ≠ '\x7b' := by
  constructor
  · rw [← Bool.not_eq_true]
    intro hspace
    simp only [isSpace, Bool.or_eq_true, decide_eq_true_eq] at hspace
    rcases hspace with ((rfl | rfl) | rfl) | rfl <;> exact absurd hc (by decide)
  · refine ⟨?_, ?_, ?_, ?_⟩ <;> rintro rfl <;> exact absurd hc (by decide)

/-! ### What is left -/

theorem Blanks.suffix (h : Blanks t u) : u <:+ t := by
  obtain ⟨blanks, -, rfl⟩ := h
  exact List.suffix_append blanks u

theorem Separator.suffix (h : Separator first t u) : u <:+ t := by
  cases h with
  | first hblanks => exact hblanks.suffix
  | next hcomma hblanks => exact (hblanks.suffix.trans (List.suffix_cons _ _)).trans hcomma.suffix

theorem CharSpelt.suffix (h : CharSpelt t c u) : u <:+ t := by
  cases h with
  | plain => exact List.suffix_cons _ _
  | short => exact List.suffix_append ['\\', _] u
  | unit => exact List.suffix_append ['\\', 'u', _, _, _, _] u
  | pair => exact List.suffix_append ['\\', 'u', _, _, _, _, '\\', 'u', _, _, _, _] u

theorem TextSpelt.suffix (h : TextSpelt t cs u) : u <:+ t := by
  induction h with
  | close => exact List.suffix_cons _ _
  | char hchar _ ih => exact ih.trans hchar.suffix

theorem KeySpelt.suffix (h : KeySpelt first k t u) : ':' :: u <:+ t := by
  obtain ⟨hfront, htext, hcolon⟩ := h
  exact ((hcolon.suffix.trans htext.suffix).trans (List.suffix_cons _ _)).trans hfront.suffix

theorem KeySpelt.length_lt (h : KeySpelt first k t u) : u.length < t.length :=
  h.suffix.length_le

/-- A part takes the front of a text off. -/
theorem Spelt.suffix (h : Spelt depth part t u) : u <:+ t := by
  induction h with
  | name => exact (List.suffix_append _ _).trans (List.suffix_cons _ _)
  | number => exact List.suffix_append _ _
  | text htext => exact htext.suffix.trans (List.suffix_cons _ _)
  | list _ ih | object _ ih => exact ih.trans (List.suffix_cons _ _)
  | endElements hclose | endMembers hclose => exact (List.suffix_cons _ _).trans hclose.suffix
  | element hfront _ _ ihvalue ihrest => exact (ihrest.trans ihvalue).trans hfront.suffix
  | member hkey hblanks _ _ ihvalue ihrest =>
    have hfront := (List.suffix_cons _ _).trans hkey.suffix
    exact ((ihrest.trans ihvalue).trans hblanks.suffix).trans hfront

/-- An object shows its closing brace. -/
theorem Spelt.brace_mem (h : Spelt depth (.members first ms) t u) : '\x7d' ∈ t := by
  induction ms generalizing first t with
  | nil =>
    cases h with
    | endMembers hclose => exact hclose.suffix.subset List.mem_cons_self
  | cons m ms ih =>
    cases h with
    | member hkey hblanks hvalue hrest =>
      have hfront := (List.suffix_cons _ _).trans hkey.suffix
      exact ((hvalue.suffix.trans hblanks.suffix).trans hfront).subset (ih hrest)

/-- A document that starts with a brace has another one at its end. -/
theorem IsDocument.brace_mem {v : Value} (h : IsDocument depth v cs) (hcs : cs = '\x7b' :: t) :
    '\x7d' ∈ t := by
  obtain ⟨t', u', hblanks, hspelt, -⟩ := h
  obtain ⟨blanks, hspace, rfl⟩ := hblanks
  cases blanks with
  | cons b blanks =>
    obtain rfl := (List.cons.inj hcs).1
    exact absurd (hspace _ List.mem_cons_self) (by decide)
  | nil =>
    have hcs : t' = '\x7b' :: t := hcs
    cases hspelt with
    | name hname =>
      obtain rfl := (List.cons.inj hcs).1
      exact nomatch hname
    | text | list => exact absurd (List.cons.inj hcs).1 (by decide)
    | @number _ f =>
      obtain ⟨c, ds, hchars, hc⟩ := f.head_chars
      rw [hchars] at hcs
      obtain rfl := (List.cons.inj hcs).1
      exact absurd hc (by decide)
    | object hmembers =>
      obtain rfl := (List.cons.inj hcs).2
      exact hmembers.brace_mem

/-! ### Where a number ends -/

theorem Blanks.ends (h : Blanks t u) (hu : Numeral.Ends u) : Numeral.Ends t := by
  obtain ⟨blanks, hblanks, rfl⟩ := h
  cases blanks with
  | nil => exact hu
  | cons b blanks =>
    intro c hc
    obtain rfl : b = c := Option.some.inj hc
    have hspace := hblanks b List.mem_cons_self
    simp only [isSpace, Bool.or_eq_true, decide_eq_true_eq] at hspace
    rcases hspace with ((rfl | rfl) | rfl) | rfl <;> decide

theorem ends_nil : Numeral.Ends [] := fun _ hc => nomatch hc

theorem ends_brace : Numeral.Ends ('\x7d' :: u) := by
  intro c hc
  obtain rfl : '\x7d' = c := Option.some.inj hc
  decide

theorem Separator.ends (h : Separator .false t u) : Numeral.Ends t := by
  obtain ⟨⟩ | ⟨hcomma, -⟩ := h
  refine hcomma.ends fun c hc => ?_
  obtain rfl : ',' = c := Option.some.inj hc
  decide

theorem KeySpelt.ends (h : KeySpelt .false k t u) : Numeral.Ends t := by
  obtain ⟨hfront, -, -⟩ := h
  exact hfront.ends

/-- A number before the rest of an object is complete. -/
theorem Spelt.ends_members (h : Spelt depth (.members .false ms) t u) : Numeral.Ends t := by
  cases h with
  | endMembers hclose => exact hclose.ends ends_brace
  | member hkey _ _ _ => exact hkey.ends

end StyleTree.Json
