import Mathlib.Algebra.Group.Nat.Defs
import Mathlib.Data.List.Induction
import StyleTree.Text.Numeral

/-!
# Reading numerals

A numeral in base 36 is a text of digits that starts with a zero only if it is the numeral of zero.
Numerals are read from the left, a digit at a time. Every number has exactly one numeral, the one
that is written for it, so a number is known from its numeral, and a numeral is as long as the
number demands.

## Main definitions

* `Text.digitValue?`, `Text.numeralValue?` — the value of a digit and of a text of digits
* `Text.IsNumeral` — a text is the numeral of a number

## Main results

* `isNumeral_iff` — the numeral of a number is the one that is written
* `base36_injective` — different numbers have different numerals
* `length_base36_le` — how long a numeral can be
-/

namespace StyleTree.Text

variable {c : Char} {cs : List Char} {t : String} {d k n : Nat}

/-- The value of a digit in base 36. -/
def digitValue? (c : Char) : Option Nat :=
  if '0' ≤ c ∧ c ≤ '9' then some (c.toNat - '0'.toNat)
  else if 'a' ≤ c ∧ c ≤ 'z' then some (c.toNat - 'a'.toNat + 10)
  else none

/-- The value of a text of digits in base 36, the most significant digit first. -/
def numeralValue? (cs : List Char) : Option Nat :=
  cs.foldlM (fun n c => (digitValue? c).map fun d => 36 * n + d) 0

/-- The text is the numeral of the number in base 36. -/
structure IsNumeral (t : String) (n : Nat) : Prop where
  ne_empty : t ≠ ""
  leading : t.toList.head? = some '0' → t = "0"
  value : numeralValue? t.toList = some n

/-! ### Digits -/

theorem digitValue?_base36Digit (hd : d < 36) : digitValue? (base36Digit d) = some d := by
  revert d
  decide

/-- A character that has a value as a digit is the digit for this value. -/
theorem base36Digit_of_digitValue? (h : digitValue? c = some d) :
    d < 36 ∧ base36Digit d = c := by
  -- The two ranges of characters as ranges of their codes.
  have hle {a b : Char} : a ≤ b ↔ a.toNat ≤ b.toNat := UInt32.le_iff_toNat_le
  have hzero : '0'.toNat = 48 := rfl
  have hnine : '9'.toNat = 57 := rfl
  have ha : 'a'.toNat = 97 := rfl
  have hz : 'z'.toNat = 122 := rfl
  simp only [digitValue?, hle, hzero, hnine, ha, hz] at h
  split at h
  · next hdigit =>
    obtain rfl := Option.some.inj h
    have hlt : c.toNat - 48 < 10 := by omega
    have hcode : 48 + (c.toNat - 48) = c.toNat := by omega
    rw [base36Digit, if_pos hlt, hcode, Char.ofNat_toNat]
    exact ⟨by omega, rfl⟩
  · split at h
    · next hletter =>
      obtain rfl := Option.some.inj h
      have hge : ¬ c.toNat - 97 + 10 < 10 := by omega
      have hcode : 87 + (c.toNat - 97 + 10) = c.toNat := by omega
      rw [base36Digit, if_neg hge, hcode, Char.ofNat_toNat]
      exact ⟨by omega, rfl⟩
    · exact absurd h (by simp)

/-! ### The digits of a number -/

theorem base36Chars_of_lt (hn : n < 36) : base36Chars n = [base36Digit n] := by
  rw [base36Chars, if_pos hn]

theorem base36Chars_zero : base36Chars 0 = ['0'] :=
  base36Chars_of_lt (by decide)

theorem base36Chars_mul_add (hn : 0 < n) (hd : d < 36) :
    base36Chars (36 * n + d) = base36Chars n ++ [base36Digit d] := by
  have hge : ¬ 36 * n + d < 36 := by omega
  have hquotient : (36 * n + d) / 36 = n := by omega
  have hrest : (36 * n + d) % 36 = d := by omega
  rw [base36Chars, if_neg hge, hquotient, hrest]

/-- Induction over a number, a digit at a time. -/
theorem base36_induction {P : Nat → Prop} (digit : ∀ d, d < 36 → P d)
    (append : ∀ n d, 0 < n → d < 36 → P n → P (36 * n + d)) (n : Nat) : P n := by
  induction n using base36Chars.induct with
  | case1 n hn => exact digit n hn
  | case2 n hn ih =>
    have hparts : 36 * (n / 36) + n % 36 = n := Nat.div_add_mod n 36
    have hstep := append (n / 36) (n % 36) (by omega) (by omega) ih
    rwa [hparts] at hstep

theorem numeralValue?_append_singleton :
    numeralValue? (cs ++ [c]) =
      (numeralValue? cs).bind fun n => (digitValue? c).map fun d => 36 * n + d := by
  rw [numeralValue?, List.foldlM_append]
  simp [numeralValue?]

theorem numeralValue?_base36Chars (n : Nat) : numeralValue? (base36Chars n) = some n := by
  induction n using base36_induction with
  | digit d hd => simp [base36Chars_of_lt hd, numeralValue?, digitValue?_base36Digit hd]
  | append n d hn hd ih =>
    rw [base36Chars_mul_add hn hd, numeralValue?_append_singleton, ih]
    simp [digitValue?_base36Digit hd]

theorem base36Chars_ne_nil (n : Nat) : base36Chars n ≠ [] := by
  induction n using base36_induction with
  | digit d hd => simp [base36Chars_of_lt hd]
  | append n d hn hd _ => simp [base36Chars_mul_add hn hd]

/-- Only the numeral of zero starts with a zero. -/
theorem eq_zero_of_head?_base36Chars (h : (base36Chars n).head? = some '0') : n = 0 := by
  induction n using base36_induction with
  | digit d hd =>
    rw [base36Chars_of_lt hd, List.head?_cons] at h
    have hvalue := digitValue?_base36Digit hd
    rw [Option.some.inj h] at hvalue
    exact (Option.some.inj hvalue).symm
  | append n d hn hd ih =>
    rw [base36Chars_mul_add hn hd, List.head?_append,
      Option.or_of_isSome (List.isSome_head?.mpr (base36Chars_ne_nil n))] at h
    exact absurd (ih h) (Nat.ne_of_gt hn)

/-- Numerals consist of the digits `0` to `9` and `a` to `z`. -/
theorem isDigit_of_mem_base36Chars (h : c ∈ base36Chars n) :
    '0' ≤ c ∧ c ≤ '9' ∨ 'a' ≤ c ∧ c ≤ 'z' := by
  have hdigit : ∀ d < 36, '0' ≤ base36Digit d ∧ base36Digit d ≤ '9' ∨
      'a' ≤ base36Digit d ∧ base36Digit d ≤ 'z' := by decide
  induction n using base36_induction with
  | digit d hd =>
    rw [base36Chars_of_lt hd, List.mem_singleton] at h
    exact h ▸ hdigit d hd
  | append n d hn hd ih =>
    rw [base36Chars_mul_add hn hd, List.mem_append, List.mem_singleton] at h
    rcases h with hmem | rfl
    · exact ih hmem
    · exact hdigit d hd

theorem length_base36Chars_le (h : n < 36 ^ (k + 1)) : (base36Chars n).length ≤ k + 1 := by
  induction n using base36_induction generalizing k with
  | digit d hd => simp [base36Chars_of_lt hd]
  | append n d hn hd ih =>
    cases k with
    | zero =>
      -- A number of two digits is not below the base.
      omega
    | succ k =>
      have hlt : n < 36 ^ (k + 1) := by
        rw [Nat.pow_succ] at h
        omega
      rw [base36Chars_mul_add hn hd, List.length_append, List.length_singleton]
      exact Nat.succ_le_succ (ih hlt)

/-! ### Numerals -/

theorem toList_base36 (n : Nat) : (base36 n).toList = base36Chars n :=
  String.toList_ofList

theorem isNumeral_base36 (n : Nat) : IsNumeral (base36 n) n where
  ne_empty hempty := by
    refine base36Chars_ne_nil n ?_
    rw [← toList_base36, hempty, String.toList_empty]
  leading hhead := by
    rw [toList_base36] at hhead
    rw [eq_zero_of_head?_base36Chars hhead]
    exact congrArg String.ofList base36Chars_zero
  value := by rw [toList_base36, numeralValue?_base36Chars]

/-- A text of digits that does not start with a zero has the digits of its value. -/
theorem eq_base36Chars (hne : cs ≠ []) (hhead : cs.head? = some '0' → cs = ['0'])
    (hvalue : numeralValue? cs = some n) : cs = base36Chars n := by
  -- The digits are taken off from the right, as they are written.
  induction cs using List.reverseRecOn generalizing n with
  | nil => exact absurd rfl hne
  | append_singleton cs c ih =>
    rw [numeralValue?_append_singleton, Option.bind_eq_some_iff] at hvalue
    obtain ⟨m, hm, hvalue⟩ := hvalue
    obtain ⟨d, hdigit, rfl⟩ := Option.map_eq_some_iff.mp hvalue
    obtain ⟨hd, rfl⟩ := base36Digit_of_digitValue? hdigit
    by_cases hcs : cs = []
    · subst hcs
      obtain rfl : 0 = m := Option.some.inj hm
      rw [Nat.mul_zero, Nat.zero_add, base36Chars_of_lt hd, List.nil_append]
    · -- A zero at the start would be all there is, but another digit follows.
      have hnozero : cs.head? ≠ some '0' := by
        intro hzero
        have hall := hhead (by rw [List.head?_append, hzero, Option.some_or])
        exact hcs (by simpa using congrArg List.dropLast hall)
      obtain rfl := ih hcs (fun hzero => absurd hzero hnozero) hm
      have hpos : 0 < m := by
        apply Nat.pos_of_ne_zero
        rintro rfl
        exact hnozero (congrArg List.head? base36Chars_zero)
      rw [base36Chars_mul_add hpos hd]

/-- The numeral of a number is the one that is written. -/
theorem isNumeral_iff : IsNumeral t n ↔ t = base36 n := by
  constructor
  · intro h
    have hne : t.toList ≠ [] := fun hnil => h.ne_empty (String.toList_eq_nil_iff.mp hnil)
    have hhead : t.toList.head? = some '0' → t.toList = ['0'] := fun hzero => by
      rw [h.leading hzero]
      rfl
    rw [← String.toList_inj, toList_base36]
    exact eq_base36Chars hne hhead h.value
  · rintro rfl
    exact isNumeral_base36 n

/-- Different numbers have different numerals. -/
theorem base36_injective : Function.Injective base36 := by
  intro m n h
  have hvalue := (isNumeral_base36 m).value
  rw [h, (isNumeral_base36 n).value] at hvalue
  exact (Option.some.inj hvalue).symm

theorem length_base36_le (h : n < 36 ^ (k + 1)) : (base36 n).length ≤ k + 1 := by
  rw [← String.length_toList, toList_base36]
  exact length_base36Chars_le h

end StyleTree.Text
