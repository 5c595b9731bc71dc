import StyleTree.Json.Reader

/-!
# Numbers in a document

An integer that fits 64 bits is exact. Any other number is read as a binary64 number: its digits are
collected in a significand of at most 64 bits, and digits that no longer fit are left out; then the
significand is multiplied with or divided by a power of ten, with one rounding for the significand,
one for the power and one for the result. Very small powers are divided by in several steps. The
result is not always the number nearest to the text.

## Main definitions

* `Numeral` — an integer, or a binary64 number
* `Numeral.digitRun` — the digits at the start of a text
* `Numeral.scaled` — a significand times a power of ten
* `Numeral.read` — the reader of a number
* `Numeral.skip` — the reader that only checks the form of a number
-/

namespace StyleTree.Json

/-- A number as it is read. -/
inductive Numeral where
  /-- An integer that fits 64 bits. -/
  | integer (i : Int)
  /-- Any other number. -/
  | float (x : Number)
  deriving DecidableEq

namespace Numeral

/-- The number, rounded if it is a large integer. -/
def toNumber : Numeral → Number
  | .integer i => .ofInt i
  | .float x => x

/-- The number as a value of the wrong kind. -/
def found : Numeral → Found
  | .integer i => .integer i
  | .float x => .float x

/-- The greatest unsigned integer of 64 bits. -/
def greatestSignificand : Nat := 18446744073709551615

/-- The value of a decimal digit. -/
def digitValue (c : Char) : Nat := c.toNat - 48

/-- The digits at the start of a text, and the rest. -/
def digitRun (cs : List Char) : List Char × List Char :=
  (cs.takeWhile Char.isDigit, cs.dropWhile Char.isDigit)

/-- Appends digits to a significand as long as the result fits 64 bits: the significand, and the
digits that are left from the first one that does not fit. -/
def accumulate (significand : Nat) : List Char → Nat × List Char
  | [] => (significand, [])
  | d :: ds =>
    let next := significand * 10 + digitValue d
    if next ≤ greatestSignificand then accumulate next ds else (significand, d :: ds)

/-! ### Powers of ten -/

/-- The number nearest to a power of ten. -/
def powerOfTen (k : Nat) : Number := .ofNat (Nat.pow 10 k)

/-- The number divided by a power of ten, by at most `10 ^ 308` at a time. -/
def divideByPower (x : Number) (k : Nat) : Number :=
  if k ≤ 308 then x.div (powerOfTen k)
  else if x.isZero then x
  else divideByPower (x.div (powerOfTen 308)) (k - 308)
termination_by k

/-- The significand times a power of ten; nothing if that is too large for a finite number. -/
def scaled (significand : Nat) (exponent : Int) : Option Number :=
  let x := Number.ofNat significand
  if exponent < 0 then some (divideByPower x exponent.natAbs)
  else if exponent ≤ 308 then
    let y := x.mul (powerOfTen exponent.natAbs)
    if y.isFinite then some y else none
  else if x.isZero then some x
  else none

/-- The binary64 number with the given sign, significand and power of ten, before `cs`. -/
def float? (negative : Bool) (significand : Nat) (exponent : Int) : Reader Numeral := fun cs =>
  match scaled significand exponent with
  | some x => .ok (.float (if negative then x.neg else x), cs)
  | none => .error (.before .numberTooLarge cs)

/-! ### The parts of a number -/

/-- The greatest exponent that is told apart from a larger one. -/
def greatestExponent : Nat := 2147483647

/-- An exponent added to another one, within signed 32 bits. -/
def addExponent (a b : Int) : Int :=
  max (-greatestExponent - 1) (min greatestExponent (a + b))

/-- The digits of an exponent after the first one, of the value read so far: the exponent, unless it
leaves 32 bits, in which case only the text after the digit that makes it leave is given. -/
def exponentDigits (value : Nat) : List Char → Except (List Char) (Nat × List Char)
  | [] => .ok (value, [])
  | c :: cs =>
    if c.isDigit then
      let next := value * 10 + digitValue c
      if next ≤ greatestExponent then exponentDigits next cs else .error cs
    else .ok (value, c :: cs)

/-- The sign of an exponent, if there is one. -/
def exponentSign : List Char → Bool × List Char
  | '+' :: cs => (false, cs)
  | '-' :: cs => (true, cs)
  | cs => (false, cs)

/-- What follows the letter of an exponent. An exponent that leaves 32 bits makes the number too
large or a zero. -/
def readExponent (negative : Bool) (significand : Nat) (start : Int) : Reader Numeral := fun cs =>
  let (down, cs) := exponentSign cs
  match cs with
  | [] => .error (.before .endInValue [])
  | c :: rest =>
    if c.isDigit then
      match exponentDigits (digitValue c) rest with
      | .ok (value, rest) =>
        float? negative significand (addExponent start (if down then -value else value)) rest
      | .error rest =>
        if significand ≠ 0 ∧ down = false then .error (.before .numberTooLarge rest)
        else .ok (.float (.zero negative), rest.dropWhile Char.isDigit)
    else .error (.inside .badNumber (c :: rest))

/-- An exponent if there is one, else the end of the number. -/
def readExponent? (negative : Bool) (significand : Nat) (start : Int) : Reader Numeral
  | 'e' :: cs => readExponent negative significand start cs
  | 'E' :: cs => readExponent negative significand start cs
  | cs => float? negative significand start cs

/-- What follows the decimal point: a digit at least. Digits that no longer fit are left out. -/
def readFraction (negative : Bool) (significand : Nat) (start : Int) : Reader Numeral := fun cs =>
  let (digits, rest) := digitRun cs
  let (significand, left) := accumulate significand digits
  match digits with
  | [] =>
    match rest with
    | [] => .error (.before .endInValue [])
    | c :: rest => .error (.inside .badNumber (c :: rest))
  | _ :: _ => readExponent? negative significand (start - (digits.length - left.length : Nat)) rest

/-- What follows the digits of an integer of which `dropped` ones are left out. -/
def readLongTail (negative : Bool) (significand dropped : Nat) : Reader Numeral
  | '.' :: cs => readFraction negative significand dropped cs
  | cs => readExponent? negative significand dropped cs

/-- The greatest natural number whose negation is a signed integer of 64 bits. -/
def greatestNegated : Nat := 9223372036854775808

/-- The integer with the given sign; the negative zero and integers beyond 64 bits are binary64
numbers. -/
def ofInteger (negative : Bool) (significand : Nat) : Numeral :=
  if negative = false then .integer significand
  else if significand = 0 ∨ greatestNegated < significand then .float (.neg (.ofNat significand))
  else .integer (-significand)

/-- What follows the digits of an integer. -/
def readTail (negative : Bool) (significand : Nat) : Reader Numeral
  | '.' :: cs => readFraction negative significand 0 cs
  | 'e' :: cs => readExponent negative significand 0 cs
  | 'E' :: cs => readExponent negative significand 0 cs
  | cs => .ok (ofInteger negative significand, cs)

/-- A number after its sign. A zero stands alone before the point. -/
def readUnsigned (negative : Bool) : Reader Numeral
  | [] => .error (.before .endInValue [])
  | c :: rest =>
    if c = '0' then
      match rest with
      | d :: rest' =>
        if d.isDigit then .error (.inside .badNumber (d :: rest'))
        else readTail negative 0 (d :: rest')
      | [] => readTail negative 0 []
    else if c.isDigit then
      let (digits, rest) := digitRun (c :: rest)
      match accumulate 0 digits with
      | (significand, []) => readTail negative significand rest
      | (significand, left) => readLongTail negative significand left.length rest
    else .error (.inside .badNumber (c :: rest))

/-- A number. -/
def read : Reader Numeral
  | '-' :: cs => readUnsigned true cs
  | cs => readUnsigned false cs

/-! ### Numbers that are not used -/

/-- Checks what follows the letter of an exponent. -/
def skipExponent : Reader Unit := fun cs =>
  match (exponentSign cs).2 with
  | [] => .error (.before .badNumber [])
  | c :: rest =>
    if c.isDigit then .ok ((), rest.dropWhile Char.isDigit)
    else .error (.inside .badNumber (c :: rest))

/-- Checks an exponent if there is one. -/
def skipExponent? : Reader Unit
  | 'e' :: cs => skipExponent cs
  | 'E' :: cs => skipExponent cs
  | cs => .ok ((), cs)

/-- Checks what follows the digits of an integer. -/
def skipTail : Reader Unit
  | '.' :: cs =>
    match digitRun cs with
    | ([], rest) => .error (.inside .badNumber rest)
    | (_ :: _, rest) => skipExponent? rest
  | cs => skipExponent? cs

/-- Checks a number after its sign. -/
def skipUnsigned : Reader Unit
  | [] => .error (.before .badNumber [])
  | c :: rest =>
    if c = '0' then
      match rest with
      | d :: rest' =>
        if d.isDigit then .error (.inside .badNumber (d :: rest')) else skipTail (d :: rest')
      | [] => .ok ((), [])
    else if c.isDigit then skipTail (rest.dropWhile Char.isDigit)
    else .error (.inside .badNumber (c :: rest))

/-- Checks the form of a number. -/
def skip : Reader Unit
  | '-' :: cs => skipUnsigned cs
  | cs => skipUnsigned cs

end Numeral

end StyleTree.Json
