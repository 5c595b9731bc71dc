import StyleTree.Number.Basic

/-!
# Shortest decimals

The decimal with the fewest digits that reads back as a given binary64 number. A decimal reads back
as the number if it lies between the midpoints to the two neighbouring numbers; the midpoints count
as inside exactly if the significand is even. Among the decimals with the fewest digits the one
nearest to the number is chosen; between two equally near ones a `Tie` decides.

## Main definitions

* `Decimal` — a positive decimal, given by its digits and the place of the point
* `Interval` — the numbers that read back as a given one, over a common denominator
* `Number.shortest` — the shortest decimal of a positive finite number
-/

namespace StyleTree

/-- Which of two equally near decimals is taken: the greater one, or the one whose last digit is
even. -/
inductive Tie where
  /-- The greater one. -/
  | up
  /-- The one with the even last digit. -/
  | even
  deriving DecidableEq

/-- A positive decimal `0.d₁d₂…dₙ · 10 ^ point`; the first and the last digit are not zero. -/
structure Decimal where
  /-- The digits, as characters. -/
  digits : List Char
  /-- The place of the decimal point, counted from before the first digit. -/
  point : Int
  deriving DecidableEq

/-- The decimal with the value `n · 10 ^ exponent`. -/
def Decimal.ofNat (n : Nat) (exponent : Int) : Decimal :=
  let all := Nat.toDigits 10 n
  ⟨(all.reverse.dropWhile (· = '0')).reverse, all.length + exponent⟩

/-- The reals that read back as a number: from `low` to `high`, with the number at `value`, each
divided by `den`; the ends belong to it if `closed`. -/
structure Interval where
  /-- Numerator of the lower end. -/
  low : Nat
  /-- Numerator of the number itself. -/
  value : Nat
  /-- Numerator of the upper end. -/
  high : Nat
  /-- The common denominator. -/
  den : Nat
  /-- Whether the ends read back as the number. -/
  closed : Bool

namespace Interval

/-- The interval of the positive finite number with the given fields. Below a power of two the
neighbour is only half as far away. -/
def ofFields (exponent : Fin 2047) (fraction : Fin fractionCount) : Interval :=
  let m := Number.significand exponent fraction
  let quarter := Number.scale exponent - 2
  let below := if fraction.val = 0 ∧ 1 < exponent.val then 1 else 2
  let unit := Nat.pow 2 quarter.toNat
  ⟨(4 * m - below) * unit, 4 * m * unit, (4 * m + 2) * unit, Nat.pow 2 (-quarter).toNat, m % 2 = 0⟩

/-- Whether the interval holds `n · 10 ^ k`. -/
def holds (i : Interval) (k : Int) (n : Nat) : Bool :=
  let x := n * i.den * Nat.pow 10 k.toNat
  let grow := Nat.pow 10 (-k).toNat
  if i.closed then i.low * grow ≤ x && x ≤ i.high * grow
  else i.low * grow < x && x < i.high * grow

/-- The number of digits of the value before the decimal point; negative or zero for a value below
one: the value lies between `10 ^ (point - 1)`, which is included, and `10 ^ point`. -/
def point (i : Interval) : Int :=
  let guess : Int := (Nat.toDigits 10 i.value).length - (Nat.toDigits 10 i.den).length
  if i.den * Nat.pow 10 guess.toNat ≤ i.value * Nat.pow 10 (-guess).toNat then guess + 1 else guess

/-- The multiple of `10 ^ k` in the interval that is nearest to the value, as the factor of
`10 ^ k`; only the two neighbours of the value can be. -/
def nearestMultiple? (tie : Tie) (i : Interval) (k : Int) : Option Nat :=
  let num := i.value * Nat.pow 10 (-k).toNat
  let den := i.den * Nat.pow 10 k.toNat
  let floor := num / den
  let twice := 2 * (num % den)
  match i.holds k floor, i.holds k (floor + 1) with
  | false, false => none
  | true, false => some floor
  | false, true => some (floor + 1)
  | true, true =>
    if twice < den then some floor
    else if den < twice then some (floor + 1)
    else match tie with
      | .up => some (floor + 1)
      | .even => some (if floor % 2 = 0 then floor else floor + 1)

/-- The shortest decimal in the interval. Seventeen digits always suffice. -/
def shortest (tie : Tie) (i : Interval) : Decimal :=
  let found := (List.range 17).findSome? fun p =>
    let k := i.point - (p + 1 : Nat)
    (i.nearestMultiple? tie k).map (Decimal.ofNat · k)
  found.getD (Decimal.ofNat i.value 0)

end Interval

end StyleTree
