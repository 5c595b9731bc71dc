import Mathlib.Algebra.BigOperators.Fin
import Mathlib.Data.Int.ModEq
import Mathlib.Tactic.Ring
import StyleTree.Proofs.Text.Numerals
import StyleTree.Text.Fingerprint

/-!
# What a fingerprint is

The rolling hash wraps around at every step. Up to multiples of `2 ^ 32` it is the sum of the code
units of the text, each with its power of 31, and the hash is the one number in signed 32-bit range
that differs from this sum by such a multiple. The fingerprint is the numeral of its magnitude.

## Main definitions

* `Text.weightedSum` — the code units with their powers of 31

## Main results

* `toInt_hashStep`, `toInt_foldl_hashStep` — what a step and a run of the hash do up to multiples
* `toInt_rollingHash_append` — the hash of a concatenation from the hashes of its parts
* `fingerprint_isNumeral` — what a fingerprint is, for every text
-/

namespace StyleTree.Text

/-- The sum of the units, each with a power of 31, the last one with the power zero. -/
def weightedSum (us : List Nat) : Nat :=
  ∑ i : Fin us.length, us[i] * 31 ^ (us.length - 1 - i)

theorem weightedSum_cons (u : Nat) (us : List Nat) :
    weightedSum (u :: us) = u * 31 ^ us.length + weightedSum us := by
  rw [weightedSum, weightedSum]
  refine (Fin.sum_univ_succ _).trans ?_
  congr 1
  -- Behind the first unit, the place and the length are both one larger.
  apply Finset.sum_congr rfl
  intro i _
  have hexponent : (u :: us).length - 1 - i.succ = us.length - 1 - i := by
    rw [List.length_cons, Fin.val_succ]
    omega
  rw [hexponent]
  rfl

/-! ### The hash up to multiples -/

/-- A step of the hash wraps around, which does not count up to multiples. -/
theorem toInt_hashStep (h : Int32) (u : Nat) :
    (hashStep h u).toInt ≡ h.toInt * 31 + u [ZMOD 2 ^ 32] := by
  have hwrap (x : Int) : x.bmod (2 ^ 32) ≡ x [ZMOD 2 ^ 32] := Int.bmod_emod
  have hunit : (Int32.ofNat u).toInt ≡ u [ZMOD 2 ^ 32] := by
    rw [Int32.toInt_ofNat']
    exact hwrap u
  calc
    (hashStep h u).toInt = ((h * 31).toInt + (Int32.ofNat u).toInt).bmod (2 ^ 32) :=
      Int32.toInt_add _ _
    _ ≡ (h * 31).toInt + (Int32.ofNat u).toInt [ZMOD 2 ^ 32] := hwrap _
    _ = (h.toInt * 31).bmod (2 ^ 32) + (Int32.ofNat u).toInt := by
      rw [Int32.toInt_mul]
      rfl
    _ ≡ h.toInt * 31 + u [ZMOD 2 ^ 32] := (hwrap _).add hunit

/-- A run of the hash from any start. -/
theorem toInt_foldl_hashStep (us : List Nat) (h : Int32) :
    (us.foldl hashStep h).toInt ≡ h.toInt * 31 ^ us.length + weightedSum us [ZMOD 2 ^ 32] := by
  -- The first unit goes into the start of the run over the others.
  induction us generalizing h with
  | nil => simp [weightedSum]
  | cons u us ih =>
    rw [List.foldl_cons, weightedSum_cons]
    calc
      (us.foldl hashStep (hashStep h u)).toInt
          ≡ (hashStep h u).toInt * 31 ^ us.length + weightedSum us [ZMOD 2 ^ 32] := ih _
      _ ≡ (h.toInt * 31 + u) * 31 ^ us.length + weightedSum us [ZMOD 2 ^ 32] :=
        ((toInt_hashStep h u).mul_right _).add_right _
      _ = h.toInt * 31 ^ (u :: us).length + ↑(u * 31 ^ us.length + weightedSum us) := by
        push_cast
        rw [List.length_cons]
        ring

theorem toInt_rollingHash (s : String) :
    (rollingHash s).toInt ≡ weightedSum (codeUnits s) [ZMOD 2 ^ 32] := by
  have h := toInt_foldl_hashStep (codeUnits s) 0
  rwa [Int32.toInt_zero, zero_mul, zero_add] at h

/-- The hash of the first part is carried over the units of the second one. -/
theorem toInt_rollingHash_append (s t : String) :
    (rollingHash (s ++ t)).toInt ≡
      (rollingHash s).toInt * 31 ^ (codeUnits t).length + (rollingHash t).toInt [ZMOD 2 ^ 32] := by
  rw [rollingHash_append]
  calc
    ((codeUnits t).foldl hashStep (rollingHash s)).toInt
        ≡ (rollingHash s).toInt * 31 ^ (codeUnits t).length + weightedSum (codeUnits t)
          [ZMOD 2 ^ 32] := toInt_foldl_hashStep _ _
    _ ≡ (rollingHash s).toInt * 31 ^ (codeUnits t).length + (rollingHash t).toInt [ZMOD 2 ^ 32] :=
      (toInt_rollingHash t).symm.add_left _

/-! ### The numeral of the magnitude -/

theorem natAbs_rollingHash_le (s : String) : (rollingHash s).toInt.natAbs ≤ 2 ^ 31 := by
  have hlower := Int32.le_toInt (rollingHash s)
  have hupper := Int32.toInt_lt (rollingHash s)
  omega

/-- Six digits are enough, as `2 ^ 31` is less than `36 ^ 6`. -/
theorem length_fingerprint_le (s : String) : (fingerprint s).length ≤ 6 := by
  apply length_base36_le
  exact Nat.lt_of_le_of_lt (natAbs_rollingHash_le s) (by decide)

theorem isDigit_of_mem_fingerprint {s : String} {c : Char} (h : c ∈ (fingerprint s).toList) :
    '0' ≤ c ∧ c ≤ '9' ∨ 'a' ≤ c ∧ c ≤ 'z' := by
  rw [fingerprint, toList_base36] at h
  exact isDigit_of_mem_base36Chars h

theorem fingerprint_ne_empty (s : String) : fingerprint s ≠ "" :=
  (isNumeral_base36 _).ne_empty

/-- For every text the hash is the number in signed 32-bit range that is the weighted sum of the
code units up to multiples of `2 ^ 32`, and the fingerprint is the numeral of its magnitude, also
where the magnitude exceeds that range. It has one to six digits, and a zero at its start only if it
is the numeral of zero. Numbers of any size are known from their numerals, and the hash of a
concatenation from the hashes of its parts and the number of units in the second one. -/
theorem fingerprint_isNumeral :
    (∀ s : String,
      let hash : Int := (rollingHash s).toInt
      (-2 ^ 31 ≤ hash ∧ hash < 2 ^ 31 ∧ hash ≡ weightedSum (codeUnits s) [ZMOD 2 ^ 32]) ∧
      (∀ t, IsNumeral t hash.natAbs ↔ t = fingerprint s) ∧
      numeralValue? (fingerprint s).toList = some hash.natAbs ∧
      (hash = -2 ^ 31 → numeralValue? (fingerprint s).toList = some (2 ^ 31)) ∧
      (1 ≤ (fingerprint s).length ∧ (fingerprint s).length ≤ 6) ∧
      (∀ c ∈ (fingerprint s).toList, '0' ≤ c ∧ c ≤ '9' ∨ 'a' ≤ c ∧ c ≤ 'z') ∧
      ((fingerprint s).toList.head? = some '0' → fingerprint s = "0")) ∧
    Function.Injective base36 ∧
    ∀ s t : String, (rollingHash (s ++ t)).toInt ≡
      (rollingHash s).toInt * 31 ^ (codeUnits t).length + (rollingHash t).toInt [ZMOD 2 ^ 32] := by
  refine ⟨fun s => ?_, base36_injective, toInt_rollingHash_append⟩
  intro hash
  have hnumeral : IsNumeral (fingerprint s) hash.natAbs := isNumeral_base36 _
  have hrange : -2 ^ 31 ≤ hash ∧ hash < 2 ^ 31 := ⟨Int32.le_toInt _, Int32.toInt_lt _⟩
  have hlength : 1 ≤ (fingerprint s).length :=
    Nat.pos_of_ne_zero fun hzero => fingerprint_ne_empty s (String.length_eq_zero_iff.mp hzero)
  refine ⟨⟨hrange.1, hrange.2, toInt_rollingHash s⟩, fun t => isNumeral_iff, hnumeral.value, ?_,
    ⟨hlength, length_fingerprint_le s⟩, fun c hc => isDigit_of_mem_fingerprint hc,
    hnumeral.leading⟩
  intro hleast
  rw [hnumeral.value, hleast]
  rfl

/-- The least hash occurs. -/
example : rollingHash "polygenelubricants" = Int32.minValue := by decide +kernel

end StyleTree.Text
