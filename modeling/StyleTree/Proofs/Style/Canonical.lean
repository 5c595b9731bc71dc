import StyleTree.Proofs.Json.Quoted
import StyleTree.Proofs.Number.Text
import StyleTree.Proofs.Style.Spelling

/-!
# What a compact text says

A compact text says everything about a tree but the numbers behind their texts: the keys with their
order, the nesting, the texts, and which values are numbers. The proof reads the two trees in
parallel. A literal shows where it ends, a number ends before a comma or a brace, and the first
character of a value tells the three sorts of values apart; so two texts that begin with the same
characters agree part by part, and what stands behind them agrees, too.

## Main definitions

* `Style.Alike`, `Sheet.Alike` — equality up to a relation of the numbers
* `Number.WrittenAlike` — the numbers that a canonical text does not tell apart

## Main results

* `Sheet.spell_append_inj` — a text begins with the text of a tree in one way
* `Sheet.canonical_eq_iff` — what trees with one canonical text have in common
-/

namespace StyleTree

open Text (quoteChars)

mutual

/-- Two scopes alike, two equal texts, or two numbers of which `same` holds. -/
def Style.Alike (same : Number → Number → Prop) : Style → Style → Prop
  | .scalar (.text s), .scalar (.text t) => s = t
  | .scalar (.number x), .scalar (.number y) => same x y
  | .scope es, .scope fs => Sheet.Alike same es fs
  | _, _ => False

/-- The same keys in the same order, with values alike. -/
def Sheet.Alike (same : Number → Number → Prop) : Sheet → Sheet → Prop
  | [], [] => True
  | (k, s) :: rest, (l, t) :: rest' => k = l ∧ s.Alike same t ∧ Sheet.Alike same rest rest'
  | _, _ => False

end

/-- Two finite numbers with the same text as style values, or two that are not finite. -/
def Number.WrittenAlike (x y : Number) : Prop :=
  x.isFinite ∧ y.isFinite ∧ x.styleText = y.styleText ∨ x.isFinite = false ∧ y.isFinite = false

/-- Whether a character ends a value that stands in an object. -/
def isEnd (c : Char) : Bool :=
  c = ',' || c = '\x7d'

/-- Whether a character cannot stand in a number: it ends one, or starts a value of another sort. -/
def isDelimiter (c : Char) : Bool :=
  c = '"' || c = '\x7b' || isEnd c

variable {number : Number → String} {level : Nat} {first : Bool} {u v : List Char}

/-! ### Where a value ends -/

theorem append_inj_of_isDelimiter {a b : List Char} (ha : ∀ c ∈ a, isDelimiter c = false)
    (hb : ∀ c ∈ b, isDelimiter c = false) (hu : ∀ c ∈ u.head?, isEnd c)
    (hv : ∀ c ∈ v.head?, isEnd c) (h : a ++ u = b ++ v) : a = b ∧ u = v := by
  have hstop {w : List Char} (hw : ∀ c ∈ w.head?, isEnd c) :
      w.takeWhile (!isDelimiter ·) = [] := by
    cases w with
    | nil => rfl
    | cons c w => simp [isDelimiter, hw c rfl]
  have htake := congrArg (List.takeWhile (!isDelimiter ·)) h
  rw [List.takeWhile_append_of_pos (by simpa using ha),
    List.takeWhile_append_of_pos (by simpa using hb), hstop hu, hstop hv, List.append_nil,
    List.append_nil] at htake
  subst htake
  exact ⟨rfl, List.append_cancel_left h⟩

theorem Sheet.isEnd_head_spell (es : Sheet) :
    ∀ c ∈ (es.spell .none number level false ++ u).head?, isEnd c := by
  cases es with
  | nil => simp [spell, Spacing.none, isEnd]
  | cons e rest => simp [spell_false_cons, isEnd]

namespace Sheet

/-- The first members agree in their keys, and what follows the colons agrees. -/
theorem spell_cons_append_inj {k l : String} {s t : Style} {rest rest' : Sheet}
    (h : spell .none number level first ((k, s) :: rest) ++ u =
      spell .none number level first ((l, t) :: rest') ++ v) :
    k = l ∧ s.spell .none number (level + 1) ++ (rest.spell .none number level false ++ u) =
      t.spell .none number (level + 1) ++ (rest'.spell .none number level false ++ v) := by
  simp only [spell, Spacing.none, List.nil_append, List.append_assoc, List.cons_append] at h
  obtain ⟨hkey, hvalue⟩ := Text.quoteChars_append_inj.mp (List.append_cancel_left h)
  exact ⟨hkey, (List.cons.inj hvalue).2⟩

/-- An object with members does not look like one that ends here. -/
theorem spell_cons_ne_spell_nil (e : String × Style) (rest : Sheet) :
    spell .none number level first (e :: rest) ++ u ≠ spell .none number level first [] ++ v := by
  obtain ⟨k, s⟩ := e
  cases first <;> simp [spell, Spacing.none, quoteChars]

end Sheet

/-! ### Trees alike have one text -/

theorem Style.spell_scalar_of_alike {v : Scalar} {s : Style}
    (h : (Style.scalar v).Alike (number · = number ·) s) :
    (Style.scalar v).spell .none number level = s.spell .none number level := by
  cases s with
  | scope fs => exact absurd h (by cases v <;> exact id)
  | scalar w =>
    cases v <;> cases w
    case text.text s t => exact congrArg (fun s => (Text.quote s).toList) h
    case number.number x y => exact congrArg String.toList h
    case text.number => exact absurd h id
    case number.text => exact absurd h id

theorem Sheet.spell_eq_of_alike (es : Sheet) :
    ∀ {fs : Sheet} {level : Nat} {first : Bool}, es.Alike (number · = number ·) fs →
      es.spell .none number level first = fs.spell .none number level first := by
  induction es using Sheet.induction with
  | nil =>
    intro fs level first h
    cases fs with
    | nil => rfl
    | cons e rest => exact absurd h id
  | scalar k v rest ih =>
    intro fs level first h
    cases fs with
    | nil => exact absurd h id
    | cons e rest' =>
      obtain ⟨l, s⟩ := e
      obtain ⟨rfl, hvalue, hrest⟩ := h
      rw [Sheet.spell, Sheet.spell, ih hrest, Style.spell_scalar_of_alike hvalue]
  | scope k inner rest ihinner ihrest =>
    intro fs level first h
    cases fs with
    | nil => exact absurd h id
    | cons e rest' =>
      obtain ⟨l, s⟩ := e
      obtain ⟨rfl, hvalue, hrest⟩ := h
      cases s with
      | scalar w => exact absurd hvalue (by cases w <;> exact id)
      | scope inner' =>
        rw [Sheet.spell, Sheet.spell, ihrest hrest, Style.spell, Style.spell, ihinner hvalue]

/-! ### Two trees in parallel -/

section Parallel

-- A number is written without the characters that tell it apart from what stands around it.
variable (hnumber : ∀ x, ∀ c ∈ (number x).toList, isDelimiter c = false)

include hnumber

theorem head_number (x : Number) (hu : ∀ c ∈ u.head?, isEnd c) :
    ∀ c ∈ ((number x).toList ++ u).head?, c ≠ '"' ∧ c ≠ '\x7b' := by
  intro c hc
  cases hx : (number x).toList with
  | nil =>
    -- A number without any character would be told apart by what stands behind it.
    rw [hx, List.nil_append] at hc
    constructor <;> rintro rfl <;> exact absurd (hu _ hc) (by decide)
  | cons d ds =>
    have hd := hnumber x d (hx ▸ List.mem_cons_self)
    obtain rfl : d = c := by simpa [hx] using hc
    constructor <;> rintro rfl <;> exact absurd hd (by decide)

theorem Style.spell_text_append_inj {t : String} {s : Style} (hv : ∀ c ∈ v.head?, isEnd c)
    (h : quoteChars t.toList ++ u = s.spell .none number level ++ v) :
    s = .scalar (.text t) ∧ u = v := by
  cases s with
  | scalar w =>
    cases w with
    | text t' =>
      rw [Style.spell, Scalar.written, Text.toList_quote] at h
      obtain ⟨rfl, hrest⟩ := Text.quoteChars_append_inj.mp h
      exact ⟨rfl, hrest⟩
    -- A number and a scope begin with other characters than a quotation mark.
    | number y => exact absurd rfl (head_number hnumber y hv '"' (h ▸ rfl)).1
  | scope fs => exact absurd (List.cons.inj h).1 (by decide)

theorem Style.spell_number_append_inj {x : Number} {s : Style} (hu : ∀ c ∈ u.head?, isEnd c)
    (hv : ∀ c ∈ v.head?, isEnd c)
    (h : (number x).toList ++ u = s.spell .none number level ++ v) :
    (∃ y, s = .scalar (.number y) ∧ number x = number y) ∧ u = v := by
  cases s with
  | scalar w =>
    cases w with
    | text t =>
      rw [Style.spell, Scalar.written, Text.toList_quote] at h
      exact absurd rfl (head_number hnumber x hu '"' (h ▸ rfl)).1
    | number y =>
      obtain ⟨hnumbers, hrest⟩ := append_inj_of_isDelimiter (hnumber x) (hnumber y) hu hv h
      exact ⟨⟨y, rfl, String.toList_inj.mp hnumbers⟩, hrest⟩
  | scope fs => exact absurd rfl (head_number hnumber x hu '\x7b' (h ▸ rfl)).2

theorem Style.spell_scope_append_inj {cs : List Char} {s : Style} (hv : ∀ c ∈ v.head?, isEnd c)
    (h : '\x7b' :: cs = s.spell .none number level ++ v) :
    ∃ fs, s = .scope fs ∧ cs = Sheet.spell .none number level true fs ++ v := by
  cases s with
  | scalar w =>
    cases w with
    | text t =>
      rw [Style.spell, Scalar.written, Text.toList_quote] at h
      exact absurd (List.cons.inj h).1 (by decide)
    | number y => exact absurd rfl (head_number hnumber y hv '\x7b' (h ▸ rfl)).2
  | scope fs => exact ⟨fs, rfl, (List.cons.inj h).2⟩

namespace Sheet

/-- A text begins with the text of a tree in one way, up to numbers of one text. -/
theorem spell_append_inj (es : Sheet) :
    ∀ {fs : Sheet} {level : Nat} {first : Bool} {u v : List Char},
      es.spell .none number level first ++ u = fs.spell .none number level first ++ v →
        es.Alike (number · = number ·) fs ∧ u = v := by
  -- The second tree is taken apart as the first one is; what is left of both texts is one text.
  induction es using Sheet.induction with
  | nil =>
    intro fs level first u v h
    cases fs with
    | nil => exact ⟨trivial, List.append_cancel_left h⟩
    | cons e rest => exact absurd h.symm (spell_cons_ne_spell_nil e rest)
  | scalar k w rest ih =>
    intro fs level first u v h
    cases fs with
    | nil => exact absurd h (spell_cons_ne_spell_nil _ rest)
    | cons e rest' =>
      obtain ⟨l, s⟩ := e
      obtain ⟨hkey, hvalue⟩ := spell_cons_append_inj h
      -- What follows the value begins with a comma or a brace in both texts.
      cases w with
      | text t =>
        rw [Style.spell, Scalar.written, Text.toList_quote] at hvalue
        obtain ⟨rfl, hrest⟩ := Style.spell_text_append_inj hnumber (isEnd_head_spell rest') hvalue
        exact (ih hrest).imp_left fun hmembers => ⟨hkey, rfl, hmembers⟩
      | number x =>
        obtain ⟨⟨y, rfl, hxy⟩, hrest⟩ := Style.spell_number_append_inj hnumber
          (isEnd_head_spell rest) (isEnd_head_spell rest') hvalue
        exact (ih hrest).imp_left fun hmembers => ⟨hkey, hxy, hmembers⟩
  | scope k inner rest ihinner ihrest =>
    intro fs level first u v h
    cases fs with
    | nil => exact absurd h (spell_cons_ne_spell_nil _ rest)
    | cons e rest' =>
      obtain ⟨l, s⟩ := e
      obtain ⟨hkey, hvalue⟩ := spell_cons_append_inj h
      obtain ⟨fs, rfl, hinner⟩ := Style.spell_scope_append_inj hnumber
        (isEnd_head_spell rest') hvalue
      obtain ⟨halike, hrest⟩ := ihinner hinner
      exact (ihrest hrest).imp_left fun hmembers => ⟨hkey, halike, hmembers⟩

/-- The compact texts of two trees are equal exactly if the trees differ at most in numbers of one
text. -/
theorem compact_eq_iff {es fs : Sheet} :
    es.compact number = fs.compact number ↔ es.Alike (number · = number ·) fs := by
  have hspell {es : Sheet} :
      (es.compact number).toList = '\x7b' :: es.spell .none number 0 true :=
    Style.toList_compact es 0
  rw [← String.toList_inj, hspell, hspell, List.cons.injEq]
  constructor
  · rintro ⟨-, h⟩
    exact (spell_append_inj hnumber es (congrArg (· ++ []) h)).1
  · exact fun h => ⟨rfl, spell_eq_of_alike es h⟩

end Sheet

end Parallel

/-! ### The canonical text -/

namespace Sheet

theorem isDelimiter_of_isPart {c : Char} (hc : Number.isPart c) : isDelimiter c = false := by
  rw [← Bool.not_eq_true]
  intro h
  have h : ((c = '"' ∨ c = '\x7b') ∨ c = ',' ∨ c = '\x7d') := by
    simpa [isDelimiter, isEnd] using h
  rcases h with (rfl | rfl) | rfl | rfl <;> exact absurd hc (by decide)

theorem isDelimiter_of_mem_null : ∀ c ∈ "null".toList, isDelimiter c = false := by
  have hnull : "null".toList.all (!isDelimiter ·) := by decide
  exact fun c hc => by simpa using List.all_eq_true.mp hnull c hc

theorem isDelimiter_of_mem_canonicalNumber (x : Number) :
    ∀ c ∈ (canonicalNumber x).toList, isDelimiter c = false := by
  rw [canonicalNumber]
  split
  · next hx => exact fun c hc => isDelimiter_of_isPart (Number.isPart_of_mem_styleText hx c hc)
  · exact isDelimiter_of_mem_null

/-- No finite number is written like one that is not finite. -/
theorem styleText_ne_null {x : Number} (hx : x.isFinite) : x.styleText ≠ "null" := by
  intro h
  have hpart := Number.isPart_of_mem_styleText hx 'n' (by rw [h]; decide)
  exact absurd hpart (by decide)

theorem canonicalNumber_eq_iff {x y : Number} :
    canonicalNumber x = canonicalNumber y ↔ x.WrittenAlike y := by
  unfold canonicalNumber Number.WrittenAlike
  cases hx : x.isFinite <;> cases hy : y.isFinite
  · simp
  · simp [(styleText_ne_null hy).symm]
  · simp [styleText_ne_null hx]
  · simp

/-- The canonical text tells trees apart by their keys with their order, their nesting, their texts
and the texts of their finite numbers, and by nothing else. -/
theorem canonical_eq_iff (es fs : Sheet) :
    es.canonical = fs.canonical ↔ es.Alike Number.WrittenAlike fs := by
  have hsame : (fun x y : Number => canonicalNumber x = canonicalNumber y) =
      Number.WrittenAlike := by
    funext x y
    exact propext canonicalNumber_eq_iff
  rw [canonical, canonical, compact_eq_iff isDelimiter_of_mem_canonicalNumber, hsame]

/-- A text is not taken for the number that it shows. -/
example : canonical [("flex", .scalar (.text "1"))] ≠
    canonical [("flex", .scalar (.number (.ofNat 1)))] := by
  decide +kernel

end Sheet

end StyleTree
