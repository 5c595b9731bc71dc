import StyleTree.Proofs.Json.Form

/-!
# Reading a written integer

The numeral of an integer of 64 bits is read back as the integer, if what stands behind it does not
go on with the number.

## Main definitions

* `Form.ofNat` — the form of an integer, by its sign and magnitude

## Main results

* `Numeral.read_toString` — a written integer is read back
-/

namespace StyleTree.Json

theorem Numeral.isDigit_of_mem_toDigits {n : Nat} {c : Char} (h : c ∈ Nat.toDigits 10 n) :
    c.isDigit :=
  Nat.isDigit_of_mem_toDigits (by decide) (by decide) h

/-- The digits of a natural number. -/
def Digits.ofNat (n : Nat) : Digits :=
  ⟨Nat.toDigits 10 n, Nat.toDigits_ne_nil, fun _ => Numeral.isDigit_of_mem_toDigits⟩

namespace Numeral

variable {n : Nat} {negative : Bool} {rest : List Char}

/-- The form of an integer. -/
def Form.ofNat (negative : Bool) (n : Nat) : Form where
  negative := negative
  whole := .ofNat n
  tail := ⟨none, none⟩
  whole_eq := by
    intro h
    rcases Nat.eq_zero_or_pos n with rfl | hpos
    · have hzero : Nat.toDigits 10 0 = ['0'] := by decide
      exact hzero
    · exact absurd h (head?_toDigits_ne hpos)

theorem Form.chars_ofNat (negative : Bool) (n : Nat) :
    (Form.ofNat negative n).chars = (if negative then ['-'] else []) ++ Nat.toDigits 10 n :=
  congrArg (_ ++ ·) (List.append_nil _)

theorem Form.value?_ofNat (hn : n ≤ greatestSignificand) :
    (Form.ofNat negative n).value? = some (ofInteger negative n) := by
  have hvalue : Nat.ofDigitChars 10 (Nat.toDigits 10 n) 0 = n := Nat.ofDigitChars_ten_toDigits
  have haccumulate := accumulate_eq (hvalue.symm ▸ hn)
  rw [hvalue] at haccumulate
  have hwhole : (Form.ofNat negative n).whole.chars = Nat.toDigits 10 n := rfl
  rw [Form.value?, hwhole, haccumulate]
  rfl

theorem toList_toString_ofNat (n : Nat) :
    (toString (Int.ofNat n)).toList = Nat.toDigits 10 n := by
  have hnat : toString (Int.ofNat n) = toString n := rfl
  rw [hnat, Nat.toString_eq_ofList_toDigits, String.toList_ofList]

theorem toList_toString_negSucc (n : Nat) :
    (toString (Int.negSucc n)).toList = '-' :: Nat.toDigits 10 (n + 1) := by
  have hneg : toString (Int.negSucc n) = "-" ++ toString (n + 1) := rfl
  simp [hneg]

/-- A written integer has the form of an integer. -/
theorem toList_toString (i : Int) :
    (toString i).toList = (Form.ofNat (decide (i < 0)) i.natAbs).chars := by
  rw [Form.chars_ofNat]
  cases i with
  | ofNat n =>
    have hsign : ¬ Int.ofNat n < 0 := Int.not_lt.mpr (Int.natCast_nonneg n)
    rw [toList_toString_ofNat, decide_eq_false hsign]
    rfl
  | negSucc n =>
    rw [toList_toString_negSucc, decide_eq_true (Int.negSucc_lt_zero n)]
    rfl

/-- A written integer starts with a digit or a sign. -/
theorem head_toString (i : Int) :
    ∃ c cs, (toString i).toList = c :: cs ∧ (c = '-' ∨ c.isDigit) :=
  toList_toString i ▸ Form.head_chars _

theorem ofInteger_natAbs {i : Int} (hlow : -greatestNegated ≤ i) :
    ofInteger (decide (i < 0)) i.natAbs = .integer i := by
  by_cases hsign : i < 0
  · have hmagnitude : ¬ (i.natAbs = 0 ∨ greatestNegated < i.natAbs) := by omega
    have hneg : -(i.natAbs : Int) = i := by omega
    rw [decide_eq_true hsign, ofInteger, if_neg (by decide), if_neg hmagnitude, hneg]
  · have hnat : (i.natAbs : Int) = i := by omega
    rw [decide_eq_false hsign, ofInteger, if_pos rfl, hnat]

/-- A written integer of 64 bits is read back. -/
theorem read_toString {i : Int} (hlow : -greatestNegated ≤ i) (hhigh : i ≤ greatestSignificand)
    (hrest : Ends rest) : read ((toString i).toList ++ rest) = .ok (.integer i, rest) := by
  have hfits : i.natAbs ≤ greatestSignificand := by
    have hle : greatestNegated ≤ greatestSignificand := by decide
    omega
  refine read_eq_ok_iff.mpr ⟨.ofNat (decide (i < 0)) i.natAbs, ?_, hrest.tail _, ?_⟩
  · rw [toList_toString]
  · rw [Form.value?_ofNat hfits, ofInteger_natAbs hlow]

end Numeral

end StyleTree.Json
