/-!
# Binary64 numbers

Numbers of the IEEE 754 format binary64 as data: no number, an infinity, or a sign with the two
fields of a finite number. Arithmetic is exact rational arithmetic followed by one rounding to the
nearest number, a tie going to the even significand, so every result is defined inside the logic.

## Main definitions

* `Number` — the numbers, with one value for all NaNs
* `Number.ofBits` — the number of an interchange bit pattern
* `Number.roundRatio` — the number nearest to a quotient of natural numbers
* `Number.ofNat`, `Number.ofInt`, `Number.mul`, `Number.div`, `Number.neg` — arithmetic
* `Number.same` — the numeric comparison: NaN differs from itself, the two zeros agree
* `Number.toInt?` — the integer that a number is

## Main results

* `same_self_iff` — a number equals itself exactly if it is not NaN
-/

namespace StyleTree

/-- The number of fractions that a significand can have: 52 bits hold them. -/
abbrev fractionCount : Nat := 4503599627370496

/-- The number of magnitudes that an interchange pattern can have: 63 bits hold them. -/
def magnitudeCount : Nat := 9223372036854775808

/-- A binary64 number. A finite one is given by its sign, its biased exponent and the fraction bits
of its significand; all NaNs are one value. -/
inductive Number where
  /-- The result of an undefined operation. -/
  | nan
  /-- An infinity of either sign. -/
  | infinite (negative : Bool)
  /-- A finite number, normal if `exponent` is not zero. -/
  | finite (negative : Bool) (exponent : Fin 2047) (fraction : Fin fractionCount)
  deriving DecidableEq

namespace Number

/-- The zero of the given sign. -/
def zero (negative : Bool) : Number := .finite negative 0 0

/-- The number whose magnitude has the given bits, `52` for the fraction below the exponent; past
the greatest exponent of a finite number it is an infinity. -/
def ofMagnitudeBits (negative : Bool) (bits : Nat) : Number :=
  if h : bits / fractionCount < 2047 then
    .finite negative ⟨bits / fractionCount, h⟩ ⟨bits % fractionCount, Nat.mod_lt _ (by decide)⟩
  else .infinite negative

/-- The number of a 64-bit interchange pattern. -/
def ofBits (bits : Nat) : Number :=
  let negative := bits / magnitudeCount % 2 = 1
  let magnitude := bits % magnitudeCount
  if magnitude ≤ 2047 * fractionCount then ofMagnitudeBits negative magnitude else .nan

/-! ### The exact value of a finite number -/

/-- The integral significand, with the hidden bit of a normal number. -/
def significand (exponent : Fin 2047) (fraction : Fin fractionCount) : Nat :=
  if exponent.val = 0 then fraction.val else fraction.val + fractionCount

/-- The power of two that the significand is multiplied with. -/
def scale (exponent : Fin 2047) : Int :=
  max 1 (exponent.val : Int) - 1075

/-- A quotient of natural numbers; the denominator of every quotient built here is positive. -/
structure Ratio where
  /-- The numerator. -/
  num : Nat
  /-- The denominator. -/
  den : Nat

/-- The quotient times a power of two. -/
def Ratio.shift (r : Ratio) (k : Int) : Ratio :=
  ⟨r.num * Nat.pow 2 k.toNat, r.den * Nat.pow 2 (-k).toNat⟩

/-- The magnitude of a finite number, exactly. -/
def magnitude (exponent : Fin 2047) (fraction : Fin fractionCount) : Ratio :=
  (Ratio.mk (significand exponent fraction) 1).shift (scale exponent)

/-! ### Rounding -/

/-- The integer nearest to a quotient; a tie goes to the even one. -/
def Ratio.nearest (r : Ratio) : Nat :=
  let q := r.num / r.den
  let twice := 2 * (r.num % r.den)
  if twice < r.den ∨ twice = r.den ∧ q % 2 = 0 then q else q + 1

/-- The exponent of the greatest power of two that is at most the quotient. -/
def Ratio.log2 (r : Ratio) : Int :=
  let guess : Int := r.num.log2 - r.den.log2
  let scaled := r.shift (-guess)
  if scaled.den ≤ scaled.num then guess else guess - 1

/-- The number nearest to a quotient, with the given sign; a tie goes to the even significand, and
what is too large for a finite number becomes an infinity. -/
def roundRatio (negative : Bool) (r : Ratio) : Number :=
  if r.num = 0 then zero negative
  else
    let exponent := max 1 (r.log2 + 1023)
    let units := (r.shift (1075 - exponent)).nearest
    ofMagnitudeBits negative ((exponent.toNat - 1) * fractionCount + units)

/-- The number nearest to a natural number. -/
def ofNat (n : Nat) : Number :=
  roundRatio false ⟨n, 1⟩

/-- The number nearest to an integer. -/
def ofInt (i : Int) : Number :=
  roundRatio (i < 0) ⟨i.natAbs, 1⟩

/-! ### Arithmetic -/

/-- Whether the sign is negative; NaN counts as positive. -/
def isNegative : Number → Bool
  | .nan => false
  | .infinite negative => negative
  | .finite negative _ _ => negative

/-- Whether the number is a zero of either sign. -/
def isZero : Number → Bool
  | .finite _ e f => e.val = 0 && f.val = 0
  | _ => false

/-- Whether the number is neither NaN nor an infinity. -/
def isFinite : Number → Bool
  | .finite _ _ _ => true
  | _ => false

/-- The number of the opposite sign. -/
def neg : Number → Number
  | .nan => .nan
  | .infinite negative => .infinite !negative
  | .finite negative e f => .finite (!negative) e f

/-- The product, rounded once. -/
def mul (x y : Number) : Number :=
  let negative := x.isNegative != y.isNegative
  match x, y with
  | .finite _ e f, .finite _ e' f' =>
    let a := magnitude e f
    let b := magnitude e' f'
    roundRatio negative ⟨a.num * b.num, a.den * b.den⟩
  | .nan, _ => .nan
  | _, .nan => .nan
  | x, y => if x.isZero || y.isZero then .nan else .infinite negative

/-- The quotient, rounded once. -/
def div (x y : Number) : Number :=
  let negative := x.isNegative != y.isNegative
  match x, y with
  | .finite _ e f, .finite _ e' f' =>
    let a := magnitude e f
    let b := magnitude e' f'
    if b.num = 0 then if a.num = 0 then .nan else .infinite negative
    else roundRatio negative ⟨a.num * b.den, a.den * b.num⟩
  | .nan, _ => .nan
  | _, .nan => .nan
  | .infinite _, .infinite _ => .nan
  | .infinite _, .finite _ _ _ => .infinite negative
  | .finite _ _ _, .infinite _ => zero negative

/-! ### Comparison and integers -/

/-- The numeric comparison: NaN differs from every number, and the two zeros agree. -/
def same (x y : Number) : Bool :=
  x != .nan && (x == y || x.isZero && y.isZero)

/-- A number equals itself exactly if it is not NaN. -/
theorem same_self_iff {x : Number} : x.same x ↔ x ≠ .nan := by
  simp [same]

/-- The integer that a number is, if it is one. -/
def toInt? : Number → Option Int
  | .finite negative e f =>
    let r := magnitude e f
    if r.num % r.den = 0 then
      some (if negative then -(r.num / r.den : Nat) else (r.num / r.den : Nat))
    else none
  | _ => none

end Number

end StyleTree
