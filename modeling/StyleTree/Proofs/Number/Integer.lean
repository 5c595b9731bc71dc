import Mathlib.Algebra.Group.Nat.Defs
import StyleTree.Number.Basic

/-!
# Integers among the numbers

Every integer of magnitude at most `2 ^ 53` is a binary64 number, and except for the sign of zero
only one number is that integer. Below the limit the significand of the number is the integer times
the power of two that brings it to 53 bits, and the exponent counts the factors; at the limit itself
the fraction is zero.

## Main definitions

* `Number.plainZero` — the number without a sign of its zero

## Main results

* `toInt?_eq_some` — sign and magnitude of a number that is an integer
* `fields_of_lt`, `fields_of_eq` — the fields of a number that is such an integer
* `ofInt_of_toInt?_eq_some` — the number nearest to the integer that a number is
-/

namespace StyleTree.Number

variable {negative : Bool} {e : Fin 2047} {f : Fin fractionCount} {n t : Nat} {i : Int}
  {x : Number}

/-- The number itself, except that both zeros become the positive one. -/
def plainZero (x : Number) : Number :=
  if x.isZero then zero false else x

theorem eq_zero_of_isZero (h : (finite negative e f).isZero) : e = 0 ∧ f = 0 := by
  simp only [isZero, Bool.and_eq_true, decide_eq_true_eq] at h
  exact ⟨Fin.ext h.1, Fin.ext h.2⟩

theorem exists_eq_zero_of_isZero (h : x.isZero) : ∃ negative, x = zero negative := by
  cases x with
  | nan => exact absurd h nofun
  | infinite negative => exact absurd h nofun
  | finite negative e f =>
    obtain ⟨rfl, rfl⟩ := eq_zero_of_isZero h
    exact ⟨negative, rfl⟩

/-- Only the negative zero has a sign that is lost. -/
theorem plainZero_eq_self (h : x ≠ zero true) : x.plainZero = x := by
  rw [plainZero]
  split
  · next hzero =>
    obtain ⟨negative, rfl⟩ := exists_eq_zero_of_isZero hzero
    cases negative with
    | false => rfl
    | true => exact absurd rfl h
  · rfl

/-! ### The fields of an integer -/

/-- A number that is an integer has its sign, and its magnitude exactly. -/
theorem toInt?_eq_some (h : (finite negative e f).toInt? = some i) :
    i = (if negative then -(i.natAbs : Int) else i.natAbs) ∧
      significand e f * 2 ^ (scale e).toNat = i.natAbs * 2 ^ (-scale e).toNat := by
  simp only [toInt?, magnitude, Ratio.shift, Nat.pow_eq, Nat.one_mul] at h
  split at h
  · next hmod =>
    -- The quotient `q` is exact, so the numerator is `q` times the denominator.
    have hdvd := Nat.div_mul_cancel (Nat.dvd_of_mod_eq_zero hmod)
    generalize significand e f * 2 ^ (scale e).toNat / 2 ^ (-scale e).toNat = q at h hdvd
    have hi := Option.some.inj h
    have habs : i.natAbs = q := by
      cases negative <;> simp only [Bool.false_eq_true, ↓reduceIte] at hi <;> omega
    rw [habs]
    exact ⟨hi.symm, hdvd.symm⟩
  · exact absurd h nofun

theorem significand_lt : significand e f < 2 ^ 53 := by
  have hf : f.val < 2 ^ 52 := f.isLt
  have hcount : fractionCount = 2 ^ 52 := rfl
  rw [significand]
  split <;> omega

/-- A positive integer has no more than 52 factors two taken off its significand. -/
theorem neg_scale_lt (hn : 0 < n)
    (h : significand e f * 2 ^ (scale e).toNat = n * 2 ^ (-scale e).toNat) : -scale e < 53 := by
  apply Int.not_le.mp
  intro hscale
  have hone : (scale e).toNat = 0 := by omega
  have hpow : 2 ^ 53 ≤ 2 ^ (-scale e).toNat := Nat.pow_le_pow_right (by decide) (by omega)
  have hle : 2 ^ (-scale e).toNat ≤ n * 2 ^ (-scale e).toNat := Nat.le_mul_of_pos_left _ hn
  rw [hone, Nat.pow_zero, Nat.mul_one] at h
  exact absurd (h ▸ significand_lt) (Nat.not_lt.mpr (Nat.le_trans hpow hle))

/-- A positive integer is a normal number. -/
theorem significand_of_pos (hn : 0 < n)
    (h : significand e f * 2 ^ (scale e).toNat = n * 2 ^ (-scale e).toNat) :
    significand e f = f.val + 2 ^ 52 ∧ scale e = e.val - 1075 := by
  have hscale := neg_scale_lt hn h
  have he : e.val ≠ 0 := by
    rw [scale] at hscale
    omega
  rw [significand, if_neg he, scale]
  exact ⟨rfl, by omega⟩

/-- Below `2 ^ 53` the significand is the integer brought to 53 bits. -/
theorem fields_of_lt (hn : 0 < n) (hlt : n < 2 ^ 53)
    (h : significand e f * 2 ^ (scale e).toNat = n * 2 ^ (-scale e).toNat) :
    ∃ t, t ≤ 52 ∧ e.val + t = 1075 ∧ f.val + 2 ^ 52 = n * 2 ^ t := by
  have ht := neg_scale_lt hn h
  obtain ⟨hsig, hscale⟩ := significand_of_pos hn h
  have hneg : scale e ≤ 0 := by
    apply Int.not_lt.mp
    intro hpos
    -- With a factor two the significand would be `2 ^ 53` at least.
    have hone : (-scale e).toNat = 0 := by omega
    have hpow : 2 ^ 1 ≤ 2 ^ (scale e).toNat := Nat.pow_le_pow_right (by decide) (by omega)
    have hle := Nat.mul_le_mul (Nat.le_add_left (2 ^ 52) f.val) hpow
    rw [hsig, hone, Nat.pow_zero, Nat.mul_one] at h
    omega
  have hone : (scale e).toNat = 0 := by omega
  rw [hsig, hone, Nat.pow_zero, Nat.mul_one] at h
  exact ⟨(-scale e).toNat, by omega, by omega, h⟩

/-- The integer `2 ^ 53` itself has the next exponent, and no fraction. -/
theorem fields_of_eq
    (h : significand e f * 2 ^ (scale e).toNat = 2 ^ 53 * 2 ^ (-scale e).toNat) :
    e.val = 1076 ∧ f.val = 0 := by
  obtain ⟨hsig, hscale⟩ := significand_of_pos (Nat.two_pow_pos 53) h
  have hlt : significand e f < 2 ^ 53 := significand_lt
  -- Without a factor two the significand would be `2 ^ 53`, with two of them the integer is larger.
  have hpos : 0 < scale e := by
    apply Int.not_le.mp
    intro hneg
    have hone : (scale e).toNat = 0 := by omega
    have hle : 2 ^ 53 ≤ 2 ^ 53 * 2 ^ (-scale e).toNat :=
      Nat.le_mul_of_pos_right _ (Nat.two_pow_pos _)
    rw [hone, Nat.pow_zero, Nat.mul_one] at h
    omega
  have hone : (-scale e).toNat = 0 := by omega
  rw [hsig, hone, Nat.pow_zero, Nat.mul_one] at h
  have htwo : (scale e).toNat < 2 := by
    apply Nat.not_le.mp
    intro hle
    have hpow : 2 ^ 2 ≤ 2 ^ (scale e).toNat := Nat.pow_le_pow_right (by decide) hle
    have hge := Nat.mul_le_mul (Nat.le_add_left (2 ^ 52) f.val) hpow
    omega
  have hscale' : (scale e).toNat = 1 := by omega
  rw [hscale'] at h
  exact ⟨by omega, by omega⟩

/-- The two zeros are the numbers that are the integer zero. -/
theorem isZero_iff_of_toInt? (h : (finite negative e f).toInt? = some i) :
    (finite negative e f).isZero ↔ i = 0 := by
  obtain ⟨-, hmag⟩ := toInt?_eq_some h
  have hpow : 0 < 2 ^ (scale e).toNat := Nat.two_pow_pos _
  have hpow' : 0 < 2 ^ (-scale e).toNat := Nat.two_pow_pos _
  have hsig : significand e f = 0 ↔ i.natAbs = 0 := by
    constructor
    · intro hzero
      rw [hzero, Nat.zero_mul] at hmag
      exact (Nat.mul_eq_zero.mp hmag.symm).resolve_right (Nat.ne_of_gt hpow')
    · intro hzero
      rw [hzero, Nat.zero_mul] at hmag
      exact (Nat.mul_eq_zero.mp hmag).resolve_right (Nat.ne_of_gt hpow)
  rw [← Int.natAbs_eq_zero, ← hsig, significand, isZero, Bool.and_eq_true, decide_eq_true_eq,
    decide_eq_true_eq]
  split <;> omega

/-! ### The nearest number -/

theorem Ratio.nearest_one (n : Nat) : (Ratio.mk n 1).nearest = n := by
  simp [Ratio.nearest, Nat.mod_one]

theorem Ratio.log2_one (hn : 0 < n) : (Ratio.mk n 1).log2 = n.log2 := by
  have hone : Nat.log2 1 = 0 := by decide
  have hself : 2 ^ n.log2 ≤ n := Nat.log2_self_le (Nat.ne_of_gt hn)
  simp [Ratio.log2, Ratio.shift, hone, hself]

/-- An integer below `2 ^ 53` is the number with its fields. -/
theorem roundRatio_of_fields (ht : t ≤ 52) (he : e.val + t = 1075)
    (hf : f.val + 2 ^ 52 = n * 2 ^ t) :
    roundRatio negative ⟨n, 1⟩ = finite negative e f := by
  have hlt : f.val < 2 ^ 52 := f.isLt
  have hn : 0 < n := by
    apply Nat.pos_of_ne_zero
    rintro rfl
    omega
  have hlog : n.log2 = 52 - t := by
    have hpow (k : Nat) : 2 ^ (52 - t + k) * 2 ^ t = 2 ^ (52 + k) := by
      rw [← Nat.pow_add]
      congr 1
      omega
    refine (Nat.log2_eq_iff (Nat.ne_of_gt hn)).mpr ⟨?_, ?_⟩
    · apply Nat.le_of_mul_le_mul_right _ (Nat.two_pow_pos t)
      rw [← hf, ← Nat.add_zero (52 - t), hpow 0]
      omega
    · apply Nat.lt_of_mul_lt_mul_right (a := 2 ^ t)
      rw [← hf, hpow 1]
      omega
  have hexponent : max 1 ((Ratio.mk n 1).log2 + 1023) = (e.val : Int) := by
    rw [Ratio.log2_one hn, hlog]
    omega
  have hshift : (Ratio.mk n 1).shift (1075 - (e.val : Int)) = ⟨f.val + 2 ^ 52, 1⟩ := by
    have hup : (1075 - (e.val : Int)).toNat = t := by omega
    have hdown : (-(1075 - (e.val : Int))).toNat = 0 := by omega
    simp only [Ratio.shift, hup, hdown, hf, Nat.pow_eq, Nat.pow_zero, Nat.mul_one]
  -- The hidden bit of the significand is one unit of the exponent.
  have hbits : (e.val - 1) * fractionCount + (f.val + 2 ^ 52) = fractionCount * e.val + f.val := by
    have hstep := Nat.succ_mul (e.val - 1) fractionCount
    have hsucc : (e.val - 1).succ = e.val := by omega
    have hcount : fractionCount = 2 ^ 52 := rfl
    rw [hsucc] at hstep
    rw [Nat.mul_comm fractionCount, hstep, ← hcount, Nat.add_comm f.val, Nat.add_assoc]
  have hdiv : (fractionCount * e.val + f.val) / fractionCount = e.val := by
    rw [Nat.mul_add_div (by decide), Nat.div_eq_of_lt f.isLt, Nat.add_zero]
  have hmod : (fractionCount * e.val + f.val) % fractionCount = f.val := by
    rw [Nat.mul_add_mod, Nat.mod_eq_of_lt f.isLt]
  simp only [roundRatio, Nat.ne_of_gt hn, ↓reduceIte, hexponent, hshift, Ratio.nearest_one,
    Int.toNat_natCast, hbits, ofMagnitudeBits, hdiv, hmod, e.isLt, ↓reduceDIte]

/-- The number nearest to the integer that a number is, is the number without a sign of zero. -/
theorem ofInt_of_toInt?_eq_some (h : x.toInt? = some i) (hi : i.natAbs ≤ 2 ^ 53) :
    ofInt i = x.plainZero := by
  cases x with
  | nan => exact absurd h nofun
  | infinite negative => exact absurd h nofun
  | finite negative e f =>
    obtain ⟨hsign, hmag⟩ := toInt?_eq_some h
    by_cases hzero : i = 0
    · subst hzero
      rw [plainZero, if_pos ((isZero_iff_of_toInt? h).mpr rfl)]
      rfl
    have hplain : (finite negative e f).plainZero = finite negative e f :=
      if_neg (mt (isZero_iff_of_toInt? h).mp hzero)
    have hpos : 0 < i.natAbs := Int.natAbs_pos.mpr hzero
    have hneg : decide (i < 0) = negative := by
      cases negative with
      | false => simp only [Bool.false_eq_true, ↓reduceIte] at hsign; simp; omega
      | true => simp only [↓reduceIte] at hsign; simp; omega
    rw [hplain, ofInt, hneg]
    rcases Nat.lt_or_eq_of_le hi with hlt | heq
    · obtain ⟨t, ht, he, hf⟩ := fields_of_lt hpos hlt hmag
      exact roundRatio_of_fields ht he hf
    · -- The integer `2 ^ 53` has one number of each sign, which is computed.
      rw [heq] at hmag ⊢
      obtain ⟨he, hf⟩ := fields_of_eq hmag
      obtain rfl : e = 1076 := Fin.ext he
      obtain rfl : f = 0 := Fin.ext hf
      cases negative <;> decide +kernel

end StyleTree.Number
