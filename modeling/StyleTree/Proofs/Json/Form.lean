import StyleTree.Json.Numeral
import StyleTree.Proofs.Json.Parts
import StyleTree.Proofs.Number.Text

/-!
# The form of a number

A number of a document is a sign, digits, a fraction and an exponent, of which all but the digits
may be missing. The reader takes the longest text of this form, so a number is read exactly where
its form ends; and what it reads is decided by the digits in the form: they are collected in a
significand as far as they fit, and the exponent counts with the digits that were left out and with
those behind the point.

## Main definitions

* `Digits`, `Numeral.Exponent`, `Numeral.Tail`, `Numeral.Form` — the form of a number and its parts
* `Form.chars` — the text of a form
* `Form.value?` — the number that it stands for, unless that is too large
* `Numeral.Ends`, `Tail.Ends` — a text that goes on with no number, or not with the one before it

## Main results

* `Form.read_chars` — what the reader gives for a form that ends
* `Numeral.form_cases` — a text begins with a form that ends, or it is broken
* `Numeral.read_eq_ok_iff` — what the reader of numbers accepts, and what it leaves
-/

namespace StyleTree.Json

/-- Decimal digits, one at least. -/
structure Digits where
  chars : List Char
  ne_nil : chars ≠ []
  isDigit : ∀ c ∈ chars, c.isDigit

theorem Digits.exists_cons (ds : Digits) :
    ∃ c cs, ds.chars = c :: cs ∧ c.isDigit ∧ ∀ d ∈ cs, d.isDigit := by
  cases h : ds.chars with
  | nil => exact absurd h ds.ne_nil
  | cons c cs =>
    have hdigit := ds.isDigit
    rw [h] at hdigit
    exact ⟨c, cs, rfl, hdigit c List.mem_cons_self, fun d hd =>
      hdigit d (List.mem_cons_of_mem c hd)⟩

/-- The digit zero alone. -/
def Digits.zero : Digits :=
  ⟨['0'], List.cons_ne_nil _ _, fun _ hc => List.mem_singleton.mp hc ▸ rfl⟩

namespace Numeral

/-! ### Forms -/

/-- The exponent of a number as it is written. -/
structure Exponent where
  letter : Char
  sign : Option Char
  digits : Digits
  letter_eq : letter = 'e' ∨ letter = 'E'
  sign_eq : sign = none ∨ sign = some '+' ∨ sign = some '-'

namespace Exponent

/-- The characters behind the letter. -/
def tail (x : Exponent) : List Char :=
  x.sign.toList ++ x.digits.chars

/-- Whether the exponent is negative. -/
def isNegative (x : Exponent) : Bool :=
  x.sign = some '-'

/-- The exponent without its sign. -/
def magnitude (x : Exponent) : Nat :=
  Nat.ofDigitChars 10 x.digits.chars 0

end Exponent

/-- The text of an exponent, with its letter. -/
def exponentChars : Option Exponent → List Char
  | none => []
  | some x => x.letter :: x.tail

/-- The text of a fraction, with its point. -/
def fractionChars : Option Digits → List Char
  | none => []
  | some ds => '.' :: ds.chars

/-- The form of a number behind the digits in front of the point. -/
structure Tail where
  fraction : Option Digits
  exponent : Option Exponent

/-- The text of a fraction and an exponent. -/
def Tail.chars (t : Tail) : List Char :=
  fractionChars t.fraction ++ exponentChars t.exponent

/-- The form of a number. A zero in front of the point stands alone. -/
structure Form where
  negative : Bool
  whole : Digits
  tail : Tail
  whole_eq : whole.chars.head? = some '0' → whole.chars = ['0']

/-- The text of a number. -/
def Form.chars (f : Form) : List Char :=
  (if f.negative then ['-'] else []) ++ (f.whole.chars ++ f.tail.chars)

/-! ### The number of a form -/

/-- A binary64 number with a sign. -/
def signed (negative : Bool) (x : Number) : Numeral :=
  .float (if negative then x.neg else x)

/-- A significand times a power of ten, of which the exponent as it is written is a part; nothing if
that is too large. -/
def withExponent (negative : Bool) (significand : Nat) (power : Int) :
    Option Exponent → Option Numeral
  | none => (scaled significand power).map (signed negative)
  | some x =>
    if x.magnitude ≤ greatestExponent then
      (scaled significand
        (addExponent power (if x.isNegative then -x.magnitude else x.magnitude))).map
          (signed negative)
    else if significand ≠ 0 ∧ x.isNegative = false then none
    else some (.float (.zero negative))

/-- The number whose digits in front of the point have the given significand, `left` being the
digits that do not fit. Without a fraction and an exponent it is an integer if all of them fit. -/
def Tail.value? (t : Tail) (negative : Bool) (significand : Nat) (left : List Char) :
    Option Numeral :=
  match t.fraction with
  | some ds =>
    let (significand, left') := accumulate significand ds.chars
    withExponent negative significand (left.length - (ds.chars.length - left'.length : Nat))
      t.exponent
  | none =>
    if t.exponent.isNone ∧ left = [] then some (ofInteger negative significand)
    else withExponent negative significand left.length t.exponent

/-- The number that a form stands for, unless it is too large. -/
def Form.value? (f : Form) : Option Numeral :=
  let (significand, left) := accumulate 0 f.whole.chars
  f.tail.value? f.negative significand left

/-! ### Where a number ends -/

/-- A text that does not go on with a number before it. -/
def Ends (rest : List Char) : Prop :=
  ∀ c ∈ rest.head?, c.isDigit = false ∧ c ≠ '.' ∧ c ≠ 'e' ∧ c ≠ 'E'

/-- A text that does not start with a digit. -/
def NoDigit (rest : List Char) : Prop :=
  ∀ c ∈ rest.head?, c.isDigit = false

/-- A text that does not go on with an exponent before it. -/
def Stops (x : Option Exponent) (rest : List Char) : Prop :=
  NoDigit rest ∧ (x = none → ∀ c ∈ rest.head?, c ≠ 'e' ∧ c ≠ 'E')

/-- A text that does not go on with a number of the form before it. -/
def Tail.Ends (t : Tail) (rest : List Char) : Prop :=
  Stops t.exponent rest ∧ (t.exponent = none → t.fraction = none → ∀ c ∈ rest.head?, c ≠ '.')

variable {c d : Char} {negative : Bool} {significand value dropped : Nat} {power : Int}
  {n : Numeral} {x : Option Exponent} {cs ds left rest : List Char}

theorem Ends.noDigit (h : Ends rest) : NoDigit rest := fun c hc => (h c hc).1

theorem Ends.tail (h : Ends rest) (t : Tail) : t.Ends rest :=
  ⟨⟨h.noDigit, fun _ c hc => (h c hc).2.2⟩, fun _ _ c hc => (h c hc).2.1⟩

theorem Stops.noDigit_append (h : Stops x rest) : NoDigit (exponentChars x ++ rest) := by
  cases x with
  | none => exact h.1
  | some x =>
    intro c hc
    obtain rfl : x.letter = c := Option.some.inj hc
    rcases x.letter_eq with hletter | hletter <;> rw [hletter] <;> rfl

/-- Behind the digits in front of the point there is no further digit. -/
theorem Tail.Ends.noDigit_append {t : Tail} (h : t.Ends rest) : NoDigit (t.chars ++ rest) := by
  obtain ⟨fraction, x⟩ := t
  cases fraction with
  | none => exact h.1.noDigit_append
  | some ds =>
    intro c hc
    obtain rfl : '.' = c := Option.some.inj hc
    rfl

/-! ### Digits -/

theorem digitRun_append (hds : ∀ c ∈ ds, c.isDigit) (hrest : NoDigit rest) :
    digitRun (ds ++ rest) = (ds, rest) := by
  have hstop : rest.takeWhile Char.isDigit = [] ∧ rest.dropWhile Char.isDigit = rest := by
    cases rest with
    | nil => exact ⟨rfl, rfl⟩
    | cons c rest => simp [hrest c rfl]
  rw [digitRun, List.takeWhile_append_of_pos hds, List.dropWhile_append_of_pos hds, hstop.1,
    hstop.2, List.append_nil]

/-- Digits at the start of a text are taken off as far as they go. -/
theorem exists_digits (hc : c.isDigit) (cs : List Char) :
    ∃ (ds : Digits) (rest : List Char), c :: cs = ds.chars ++ rest ∧ NoDigit rest := by
  refine ⟨⟨(c :: cs).takeWhile Char.isDigit, ?_, List.all_eq_true.mp List.all_takeWhile⟩,
    (c :: cs).dropWhile Char.isDigit, List.takeWhile_append_dropWhile.symm, fun d hd => ?_⟩
  · rw [List.takeWhile_cons_of_pos hc]
    exact List.cons_ne_nil _ _
  · have hdrop := List.head?_dropWhile_not Char.isDigit (c :: cs)
    rw [hd] at hdrop
    simpa using hdrop

theorem ofDigitChars_ten_cons :
    Nat.ofDigitChars 10 (d :: ds) value = Nat.ofDigitChars 10 ds (value * 10 + digitValue d) := by
  rw [Nat.ofDigitChars_cons, Nat.mul_comm]
  rfl

theorem le_ofDigitChars (value : Nat) (ds : List Char) : value ≤ Nat.ofDigitChars 10 ds value := by
  rw [Nat.ofDigitChars_eq_ofDigitChars_zero]
  have hone : 0 < 10 ^ ds.length := Nat.pow_pos (by decide)
  exact Nat.le_add_right_of_le (Nat.le_mul_of_pos_left value hone)

/-- If the value of all digits fits, none of them is left out. -/
theorem accumulate_eq (h : Nat.ofDigitChars 10 ds significand ≤ greatestSignificand) :
    accumulate significand ds = (Nat.ofDigitChars 10 ds significand, []) := by
  induction ds generalizing significand with
  | nil => rfl
  | cons d ds ih =>
    rw [ofDigitChars_ten_cons] at h ⊢
    -- Further digits make the value larger, so it fits up to here if it fits at the end.
    have hfits := Nat.le_trans (le_ofDigitChars _ ds) h
    rw [accumulate, if_pos hfits, ih h]

/-- An exponent that fits is read. -/
theorem exponentDigits_of_le (hds : ∀ c ∈ ds, c.isDigit) (hrest : NoDigit rest)
    (h : Nat.ofDigitChars 10 ds value ≤ greatestExponent) :
    exponentDigits value (ds ++ rest) = .ok (Nat.ofDigitChars 10 ds value, rest) := by
  induction ds generalizing value with
  | nil =>
    cases rest with
    | nil => rfl
    | cons c rest =>
      have hc : ¬ c.isDigit = true := by simp [hrest c rfl]
      rw [List.nil_append, exponentDigits, if_neg hc]
      rfl
  | cons d ds ih =>
    obtain ⟨hd, hds⟩ := List.forall_mem_cons.mp hds
    rw [ofDigitChars_ten_cons] at h ⊢
    have hfits := Nat.le_trans (le_ofDigitChars _ ds) h
    rw [List.cons_append, exponentDigits, if_pos hd]
    dsimp only
    rw [if_pos hfits, ih hds h]

/-- An exponent that does not fit is given up on one of its digits. -/
theorem exponentDigits_of_lt (hds : ∀ c ∈ ds, c.isDigit) (hrest : NoDigit rest)
    (hvalue : value ≤ greatestExponent) (h : greatestExponent < Nat.ofDigitChars 10 ds value) :
    ∃ more, exponentDigits value (ds ++ rest) = .error more ∧
      more.dropWhile Char.isDigit = rest := by
  induction ds generalizing value with
  | nil => exact absurd h (Nat.not_lt.mpr hvalue)
  | cons d ds ih =>
    obtain ⟨hd, hds⟩ := List.forall_mem_cons.mp hds
    rw [ofDigitChars_ten_cons] at h
    rw [List.cons_append, exponentDigits, if_pos hd]
    dsimp only
    by_cases hfits : value * 10 + digitValue d ≤ greatestExponent
    · rw [if_pos hfits]
      exact ih hds hfits h
    · rw [if_neg hfits]
      exact ⟨ds ++ rest, rfl, congrArg Prod.snd (digitRun_append hds hrest)⟩

/-! ### What the reader gives for a form -/

/-- The result of a reader of numbers: the number with the text behind it, or a fault of syntax if
there is no such number. -/
def Gives (r : Except Fault (Numeral × List Char)) : Option Numeral → List Char → Prop
  | some n, rest => r = .ok (n, rest)
  | none, _ => Broken r

theorem float?_gives :
    Gives (float? negative significand power rest)
      ((scaled significand power).map (signed negative)) rest := by
  unfold float?
  cases scaled significand power with
  | none => exact ⟨_, rfl, rfl⟩
  | some x => rfl

theorem exponentSign_tail (x : Exponent) :
    exponentSign (x.tail ++ rest) = (x.isNegative, x.digits.chars ++ rest) := by
  obtain ⟨c, cs, hchars, hc, -⟩ := x.digits.exists_cons
  unfold Exponent.tail Exponent.isNegative
  rcases x.sign_eq with hsign | hsign | hsign <;> rw [hsign]
  · -- Without a sign, the digits themselves must not be taken for one.
    rw [hchars]
    have hplus : c ≠ '+' := by rintro rfl; exact absurd hc (by decide)
    have hminus : c ≠ '-' := by rintro rfl; exact absurd hc (by decide)
    simp [exponentSign, hplus, hminus]
  · rfl
  · rfl

theorem readExponent_gives (x : Exponent) (hrest : NoDigit rest) :
    Gives (readExponent negative significand power (x.tail ++ rest))
      (withExponent negative significand power (some x)) rest := by
  obtain ⟨c, cs, hchars, hc, hcs⟩ := x.digits.exists_cons
  have hmagnitude : x.magnitude = Nat.ofDigitChars 10 cs (digitValue c) := by
    rw [Exponent.magnitude, hchars, ofDigitChars_ten_cons, Nat.zero_mul, Nat.zero_add]
  have hnine : digitValue c ≤ greatestExponent := by
    have hle : c.toNat ≤ 57 := by
      simp only [Char.isDigit, Bool.and_eq_true, decide_eq_true_eq] at hc
      exact hc.2
    exact Nat.le_trans (Nat.sub_le_sub_right hle 48) (by decide)
  rw [readExponent, exponentSign_tail, hchars, List.cons_append]
  dsimp only [withExponent]
  rw [if_pos hc, hmagnitude]
  -- An exponent that does not fit is given up in the middle, and its other digits are dropped.
  by_cases hle : Nat.ofDigitChars 10 cs (digitValue c) ≤ greatestExponent
  · rw [exponentDigits_of_le hcs hrest hle, if_pos hle]
    exact float?_gives
  · obtain ⟨more, hread, hmore⟩ :=
      exponentDigits_of_lt hcs hrest hnine (Nat.lt_of_not_le hle)
    rw [hread, if_neg hle]
    dsimp only
    split
    · exact ⟨_, rfl, rfl⟩
    · rw [hmore]
      rfl

theorem readExponent?_gives (hrest : Stops x rest) :
    Gives (readExponent? negative significand power (exponentChars x ++ rest))
      (withExponent negative significand power x) rest := by
  cases x with
  | none =>
    rw [exponentChars, List.nil_append]
    unfold readExponent?
    split
    · exact absurd rfl (hrest.2 rfl 'e' rfl).1
    · exact absurd rfl (hrest.2 rfl 'E' rfl).2
    · exact float?_gives
  | some x =>
    rw [exponentChars, List.cons_append]
    rcases x.letter_eq with hletter | hletter <;> rw [hletter] <;>
      exact readExponent_gives x hrest.1

theorem readFraction_gives (ds : Digits) (hrest : Stops x rest) :
    Gives (readFraction negative significand power (ds.chars ++ (exponentChars x ++ rest)))
      (withExponent negative (accumulate significand ds.chars).1
        (power - (ds.chars.length - (accumulate significand ds.chars).2.length : Nat)) x) rest := by
  -- What stands behind the digits is no digit, so the run of digits is the whole fraction.
  have hrun := digitRun_append ds.isDigit hrest.noDigit_append
  obtain ⟨c, cs, hchars, -, -⟩ := ds.exists_cons
  rw [readFraction, hrun, hchars]
  exact readExponent?_gives hrest

/-- Behind digits that fit. -/
theorem readTail_gives (t : Tail) (hrest : t.Ends rest) :
    Gives (readTail negative significand (t.chars ++ rest)) (t.value? negative significand [])
      rest := by
  obtain ⟨fraction, x⟩ := t
  cases fraction with
  | some ds =>
    rw [Tail.chars, List.append_assoc]
    exact readFraction_gives ds hrest.1
  | none =>
    cases x with
    | some x =>
      rw [Tail.chars, fractionChars, List.nil_append, exponentChars, List.cons_append]
      rcases x.letter_eq with hletter | hletter <;> rw [hletter] <;>
        exact readExponent_gives x hrest.1.1
    | none =>
      rw [Tail.chars, fractionChars, exponentChars, List.nil_append, List.nil_append]
      unfold readTail
      split
      · exact absurd rfl (hrest.2 rfl rfl '.' rfl)
      · exact absurd rfl (hrest.1.2 rfl 'e' rfl).1
      · exact absurd rfl (hrest.1.2 rfl 'E' rfl).2
      · rfl

/-- Behind digits of which some are left out. -/
theorem readLongTail_gives (t : Tail) (hrest : t.Ends rest) (hleft : left ≠ []) :
    Gives (readLongTail negative significand left.length (t.chars ++ rest))
      (t.value? negative significand left) rest := by
  obtain ⟨fraction, x⟩ := t
  cases fraction with
  | some ds =>
    rw [Tail.chars, List.append_assoc]
    exact readFraction_gives ds hrest.1
  | none =>
    have hpoint : ∀ c ∈ (exponentChars x ++ rest).head?, c ≠ '.' := by
      cases x with
      | none => exact hrest.2 rfl rfl
      | some x =>
        intro c hc
        obtain rfl : x.letter = c := Option.some.inj hc
        rcases x.letter_eq with hletter | hletter <;> rw [hletter] <;> decide
    rw [Tail.chars, fractionChars, List.nil_append, Tail.value?]
    dsimp only
    rw [if_neg (fun h => hleft h.2)]
    unfold readLongTail
    split
    · next heq => exact absurd rfl (hpoint '.' (heq ▸ rfl))
    · exact readExponent?_gives hrest.1

/-- The reader for what stands behind the digits in front of the point, by their significand and by
the digits that do not fit. -/
def readBehind (negative : Bool) : Nat × List Char → Reader Numeral
  | (significand, []) => readTail negative significand
  | (significand, d :: left) => readLongTail negative significand (d :: left).length

theorem readUnsigned_whole (whole : Digits)
    (hwhole : whole.chars.head? = some '0' → whole.chars = ['0']) (hrest : NoDigit rest) :
    readUnsigned negative (whole.chars ++ rest) =
      readBehind negative (accumulate 0 whole.chars) rest := by
  obtain ⟨c, cs, hchars, hc, -⟩ := whole.exists_cons
  have hrun := digitRun_append whole.isDigit hrest
  rw [hchars] at hrun hwhole ⊢
  rw [List.cons_append] at hrun ⊢
  unfold readUnsigned
  dsimp only
  by_cases hc0 : c = '0'
  · -- A zero is taken alone, and the character behind it is looked at.
    subst hc0
    obtain rfl : cs = [] := (List.cons.inj (hwhole rfl)).2
    rw [if_pos rfl, List.nil_append]
    cases rest with
    | nil => rfl
    | cons d ds =>
      have hd : ¬ d.isDigit = true := by simp [hrest d rfl]
      dsimp only
      rw [if_neg hd]
      rfl
  · rw [if_neg hc0, if_pos hc, hrun]
    dsimp only
    cases accumulate 0 (c :: cs) with
    | mk significand left => cases left <;> rfl

theorem readUnsigned_gives (f : Form) (hrest : f.tail.Ends rest) :
    Gives (readUnsigned f.negative (f.whole.chars ++ (f.tail.chars ++ rest))) f.value? rest := by
  rw [readUnsigned_whole f.whole f.whole_eq hrest.noDigit_append, Form.value?]
  cases accumulate 0 f.whole.chars with
  | mk significand left =>
    cases left with
    | nil => exact readTail_gives f.tail hrest
    | cons d left => exact readLongTail_gives f.tail hrest (List.cons_ne_nil d left)

theorem read_of_isDigit (hc : c.isDigit) : read (c :: cs) = readUnsigned false (c :: cs) := by
  unfold read
  split
  · next heq =>
    obtain rfl := (List.cons.inj heq).1
    exact absurd hc (by decide)
  · rfl

/-- The reader takes a form up to where it ends, and gives the number that it stands for. -/
theorem Form.read_chars (f : Form) (hrest : f.tail.Ends rest) :
    Gives (read (f.chars ++ rest)) f.value? rest := by
  have hunsigned := readUnsigned_gives f hrest
  rw [Form.chars, List.append_assoc, List.append_assoc]
  cases hnegative : f.negative with
  | true =>
    rw [hnegative] at hunsigned
    exact hunsigned
  | false =>
    rw [hnegative] at hunsigned
    obtain ⟨c, cs, hchars, hc, -⟩ := f.whole.exists_cons
    rw [hchars, List.cons_append] at hunsigned ⊢
    rw [if_neg Bool.false_ne_true, List.nil_append, read_of_isDigit hc]
    exact hunsigned

/-! ### Broken numbers -/

theorem exponentSign_cases (cs : List Char) :
    ∃ (sign : Option Char) (down : Bool) (ds : List Char),
      (sign = none ∨ sign = some '+' ∨ sign = some '-') ∧ cs = sign.toList ++ ds ∧
        exponentSign cs = (down, ds) := by
  unfold exponentSign
  split
  · exact ⟨some '+', _, _, .inr (.inl rfl), rfl, rfl⟩
  · exact ⟨some '-', _, _, .inr (.inr rfl), rfl, rfl⟩
  · exact ⟨none, _, _, .inl rfl, rfl, rfl⟩

theorem readExponent_cases (hletter : d = 'e' ∨ d = 'E') (cs : List Char) :
    (∃ (x : Exponent) (rest : List Char), d :: cs = exponentChars (some x) ++ rest ∧
        NoDigit rest) ∨
      ∀ negative significand power, Broken (readExponent negative significand power cs) := by
  obtain ⟨sign, down, ds, hsign, rfl, hread⟩ := exponentSign_cases cs
  cases ds with
  | nil =>
    right
    intro negative significand power
    rw [readExponent, hread]
    exact ⟨_, rfl, rfl⟩
  | cons c ds =>
    by_cases hc : c.isDigit
    · obtain ⟨digits, rest, hds, hrest⟩ := exists_digits hc ds
      refine .inl ⟨⟨d, sign, digits, hletter, hsign⟩, rest, ?_, hrest⟩
      rw [exponentChars, Exponent.tail, List.cons_append, List.append_assoc, ← hds]
    · right
      intro negative significand power
      rw [readExponent, hread]
      dsimp only
      rw [if_neg hc]
      exact ⟨_, rfl, rfl⟩

/-- There is an exponent or there is none, or it is broken behind its letter. -/
theorem readExponent?_cases (hcs : NoDigit cs) :
    (∃ (x : Option Exponent) (rest : List Char), cs = exponentChars x ++ rest ∧ Stops x rest) ∨
      ∃ d ds, cs = d :: ds ∧ (d = 'e' ∨ d = 'E') ∧
        ∀ negative significand power, Broken (readExponent negative significand power ds) := by
  cases cs with
  | nil => exact .inl ⟨none, [], rfl, hcs, fun _ c hc => nomatch hc⟩
  | cons d ds =>
    by_cases hletter : d = 'e' ∨ d = 'E'
    · rcases readExponent_cases hletter ds with ⟨x, rest, heq, hrest⟩ | hbroken
      · exact .inl ⟨some x, rest, heq, hrest, fun h => nomatch h⟩
      · exact .inr ⟨d, ds, rfl, hletter, hbroken⟩
    · refine .inl ⟨none, d :: ds, rfl, hcs, fun _ c hc => ?_⟩
      obtain rfl : d = c := Option.some.inj hc
      exact not_or.mp hletter

/-- A point is followed by digits and perhaps an exponent, or the number is broken. -/
theorem readFraction_cases (cs : List Char) :
    (∃ (ds : Digits) (x : Option Exponent) (rest : List Char),
        cs = ds.chars ++ (exponentChars x ++ rest) ∧ Stops x rest) ∨
      ∀ negative significand power, Broken (readFraction negative significand power cs) := by
  cases cs with
  | nil => exact .inr fun _ _ _ => ⟨_, rfl, rfl⟩
  | cons c cs =>
    by_cases hc : c.isDigit
    · obtain ⟨ds, tail, heq, htail⟩ := exists_digits hc cs
      rcases readExponent?_cases htail with ⟨x, rest, rfl, hrest⟩ | ⟨d, ds', rfl, hd, hbroken⟩
      · exact .inl ⟨ds, x, rest, heq, hrest⟩
      · right
        intro negative significand power
        obtain ⟨e, es, hchars, -, -⟩ := ds.exists_cons
        rw [readFraction, heq, digitRun_append ds.isDigit htail, hchars]
        rcases hd with rfl | rfl <;> exact hbroken _ _ _
    · right
      intro negative significand power
      have hrun : digitRun (c :: cs) = ([], c :: cs) := by simp [digitRun, hc]
      rw [readFraction, hrun]
      exact ⟨_, rfl, rfl⟩

/-- Digits are followed by a fraction and an exponent, or the number is broken behind the point or
behind the letter. -/
theorem readTail_cases (hcs : NoDigit cs) :
    (∃ (t : Tail) (rest : List Char), cs = t.chars ++ rest ∧ t.Ends rest) ∨
      (∀ negative significand, Broken (readTail negative significand cs)) ∧
        ∀ negative significand dropped, Broken (readLongTail negative significand dropped cs) := by
  by_cases hpoint : cs.head? = some '.'
  · obtain ⟨ds, rfl⟩ := List.head?_eq_some_iff.mp hpoint
    rcases readFraction_cases ds with ⟨digits, x, rest, rfl, hrest⟩ | hbroken
    · refine .inl ⟨⟨some digits, x⟩, rest, ?_, hrest, fun _ h => nomatch h⟩
      rw [Tail.chars, List.append_assoc]
      rfl
    · exact .inr ⟨fun _ _ => hbroken _ _ _, fun _ _ _ => hbroken _ _ _⟩
  · rcases readExponent?_cases hcs with ⟨x, rest, rfl, hrest⟩ | ⟨d, ds, rfl, hd, hbroken⟩
    · refine .inl ⟨⟨none, x⟩, rest, rfl, hrest, fun hx _ c hc h => hpoint ?_⟩
      have hx : x = none := hx
      subst hx h
      exact hc
    · rcases hd with rfl | rfl <;> exact .inr ⟨fun _ _ => hbroken _ _ _, fun _ _ _ => hbroken _ _ _⟩

theorem readUnsigned_append_cases (whole : Digits)
    (hwhole : whole.chars.head? = some '0' → whole.chars = ['0']) (hcs : NoDigit cs) :
    (∃ (t : Tail) (rest : List Char), cs = t.chars ++ rest ∧ t.Ends rest) ∨
      ∀ negative, Broken (readUnsigned negative (whole.chars ++ cs)) := by
  refine (readTail_cases hcs).imp_right fun ⟨htail, hlong⟩ negative => ?_
  rw [readUnsigned_whole whole hwhole hcs]
  cases accumulate 0 whole.chars with
  | mk significand left =>
    cases left with
    | nil => exact htail _ _
    | cons d left => exact hlong _ _ _

/-- Digits and what follows them make a form, or the number is broken. -/
theorem readUnsigned_cases (cs : List Char) :
    (∃ (whole : Digits) (t : Tail) (rest : List Char),
        (whole.chars.head? = some '0' → whole.chars = ['0']) ∧
          cs = whole.chars ++ (t.chars ++ rest) ∧ t.Ends rest) ∨
      ∀ negative, Broken (readUnsigned negative cs) := by
  cases cs with
  | nil => exact .inr fun _ => ⟨_, rfl, rfl⟩
  | cons c cs =>
    by_cases hc0 : c = '0'
    · subst hc0
      by_cases hcs : ∃ d ∈ cs.head?, d.isDigit
      · -- A digit behind a zero is refused.
        obtain ⟨d, hd, hdigit⟩ := hcs
        obtain ⟨ds, rfl⟩ := List.head?_eq_some_iff.mp hd
        right
        intro negative
        unfold readUnsigned
        dsimp only
        rw [if_pos rfl, if_pos hdigit]
        exact ⟨_, rfl, rfl⟩
      · have hcs : NoDigit cs := fun d hd => Bool.eq_false_iff.mpr fun h => hcs ⟨d, hd, h⟩
        refine (readUnsigned_append_cases .zero (fun _ => rfl) hcs).imp_left ?_
        rintro ⟨t, rest, rfl, hrest⟩
        exact ⟨.zero, t, rest, fun _ => rfl, rfl, hrest⟩
    · by_cases hc : c.isDigit
      · obtain ⟨whole, tail, heq, htail⟩ := exists_digits hc cs
        have hwhole : whole.chars.head? = some '0' → whole.chars = ['0'] := by
          obtain ⟨e, es, hchars, -, -⟩ := whole.exists_cons
          rw [hchars] at heq ⊢
          obtain rfl := (List.cons.inj heq).1
          exact fun h => absurd (Option.some.inj h) hc0
        rw [heq]
        refine (readUnsigned_append_cases whole hwhole htail).imp_left ?_
        rintro ⟨t, rest, rfl, hrest⟩
        exact ⟨whole, t, rest, hwhole, rfl, hrest⟩
      · right
        intro negative
        unfold readUnsigned
        dsimp only
        rw [if_neg hc0, if_neg hc]
        exact ⟨_, rfl, rfl⟩

/-- A text begins with a form that ends where it can, or it is no number. -/
theorem form_cases (cs : List Char) :
    (∃ (f : Form) (rest : List Char), cs = f.chars ++ rest ∧ f.tail.Ends rest) ∨
      Broken (read cs) := by
  by_cases hsign : cs.head? = some '-'
  · obtain ⟨ds, rfl⟩ := List.head?_eq_some_iff.mp hsign
    rcases readUnsigned_cases ds with ⟨whole, t, rest, hwhole, rfl, hrest⟩ | hbroken
    · refine .inl ⟨⟨true, whole, t, hwhole⟩, rest, ?_, hrest⟩
      rw [Form.chars, List.append_assoc, List.append_assoc]
      rfl
    · exact .inr (hbroken true)
  · rcases readUnsigned_cases cs with ⟨whole, t, rest, hwhole, rfl, hrest⟩ | hbroken
    · refine .inl ⟨⟨false, whole, t, hwhole⟩, rest, ?_, hrest⟩
      rw [Form.chars, List.append_assoc, List.append_assoc]
      rfl
    · right
      unfold read
      split
      · exact absurd rfl hsign
      · exact hbroken false

/-- A number is read exactly where a form ends that stands for it. -/
theorem read_eq_ok_iff :
    read cs = .ok (n, rest) ↔
      ∃ f : Form, cs = f.chars ++ rest ∧ f.tail.Ends rest ∧ f.value? = some n := by
  constructor
  · intro h
    rcases form_cases cs with ⟨f, rest', rfl, hrest⟩ | ⟨fault, hfault, -⟩
    · have hread := f.read_chars hrest
      cases hvalue : f.value? with
      | none =>
        obtain ⟨fault, hfault, -⟩ : Broken (read (f.chars ++ rest')) := by rwa [hvalue] at hread
        exact absurd (h.symm.trans hfault) nofun
      | some m =>
        have hread : read (f.chars ++ rest') = .ok (m, rest') := by rwa [hvalue] at hread
        obtain ⟨rfl, rfl⟩ := Prod.mk.inj (Except.ok.inj (hread.symm.trans h))
        exact ⟨f, rfl, hrest, hvalue⟩
    · exact absurd (h.symm.trans hfault) nofun
  · rintro ⟨f, rfl, hrest, hvalue⟩
    have hread := f.read_chars hrest
    rwa [hvalue] at hread

/-- What is no number is refused for a fault of syntax. -/
theorem read_cases (cs : List Char) :
    (∃ n rest, read cs = .ok (n, rest)) ∨ Broken (read cs) := by
  rcases form_cases cs with ⟨f, rest, rfl, hrest⟩ | hbroken
  · have hread := f.read_chars hrest
    cases hvalue : f.value? with
    | none =>
      rw [hvalue] at hread
      exact .inr hread
    | some n =>
      rw [hvalue] at hread
      exact .inl ⟨n, rest, hread⟩
  · exact .inr hbroken

/-- The text of a number starts with a sign or a digit. -/
theorem Form.head_chars (f : Form) : ∃ c cs, f.chars = c :: cs ∧ (c = '-' ∨ c.isDigit) := by
  obtain ⟨c, cs, hchars, hc, -⟩ := f.whole.exists_cons
  rw [Form.chars, hchars]
  cases f.negative with
  | true => exact ⟨_, _, rfl, .inl rfl⟩
  | false => exact ⟨_, _, rfl, .inr hc⟩

end Numeral

end StyleTree.Json
