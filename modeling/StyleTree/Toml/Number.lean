import StyleTree.Number.Basic
import StyleTree.Toml.Text

/-!
# Numbers and dates in TOML

The readers of values that start with a sign or a digit. What a number is does not matter here, only
whether it is one: its digits may be parted by single underscores, a decimal integer has no leading
zeros, an integer fits 64 bits, and a float is not too large. A date must exist.

## Main definitions

* `date` — a date, a time or both, as normalised text
* `number` — a number of any kind
-/

namespace StyleTree.Toml

/-- The value of some decimal digits. -/
def digitsValue (base : Nat) (digits : List Char) : Nat :=
  digits.foldl (fun n d => base * n + (hexValue? d).getD 0) 0

/-! ### Dates -/

/-- A field of `count` digits with a value from `low` to `high`. -/
def field (count low high : Nat) : Reader Nat := fun cs =>
  let digits := cs.take count
  let value := digitsValue 10 digits
  if digits.length = count ∧ digits.all Char.isDigit ∧ low ≤ value ∧ value ≤ high then
    some (value, cs.drop count)
  else none

/-- A certain character. -/
def mark (c : Char) : Reader Unit
  | [] => none
  | d :: cs => if d = c then some ((), cs) else none

/-- A number with at least `width` digits. -/
def padded (width n : Nat) : String :=
  let digits := Nat.toDigits 10 n
  String.ofList (List.replicate (width - digits.length) '0' ++ digits)

/-- The number of days of a month. -/
def daysOfMonth (year month : Nat) : Nat :=
  if month = 2 then
    if year % 4 = 0 ∧ (year % 100 ≠ 0 ∨ year % 400 = 0) then 29 else 28
  else if month = 4 ∨ month = 6 ∨ month = 9 ∨ month = 11 then 30
  else 31

/-- A day of the calendar. -/
def fullDate : Reader String := fun cs => do
  let (year, cs) ← field 4 0 9999 cs
  let ((), cs) ← mark '-' cs
  let (month, cs) ← field 2 1 12 cs
  let ((), cs) ← mark '-' cs
  let (day, cs) ← field 2 1 (daysOfMonth year month) cs
  return (padded 4 year ++ "-" ++ padded 2 month ++ "-" ++ padded 2 day, cs)

/-- A fraction of a second, if there is one: nine digits count, and zeros at the end are dropped. -/
def secondFraction : Reader String
  | '.' :: cs =>
    match cs.takeWhile Char.isDigit with
    | [] => none
    | digits =>
      let kept := ((digits.take 9).reverse.dropWhile (· = '0')).reverse
      some (if kept = [] then "" else "." ++ String.ofList kept, cs.dropWhile Char.isDigit)
  | cs => some ("", cs)

/-- A time of day. -/
def partialTime : Reader String := fun cs => do
  let (hour, cs) ← field 2 0 23 cs
  let ((), cs) ← mark ':' cs
  let (minute, cs) ← field 2 0 59 cs
  let ((), cs) ← mark ':' cs
  let (second, cs) ← field 2 0 60 cs
  let (fraction, cs) ← secondFraction cs
  return (padded 2 hour ++ ":" ++ padded 2 minute ++ ":" ++ padded 2 second ++ fraction, cs)

/-- The distance from universal time, if it is given. -/
def timeOffset : Reader String := fun cs =>
  match cs with
  | [] => some ("", [])
  | c :: rest =>
    if c = 'Z' ∨ c = 'z' then some ("Z", rest)
    else if c = '+' ∨ c = '-' then do
      let (hour, rest) ← field 2 0 23 rest
      let ((), rest) ← mark ':' rest
      let (minute, rest) ← field 2 0 59 rest
      let sign := if c = '-' ∧ 0 < hour + minute then "-" else "+"
      return (sign ++ padded 2 hour ++ ":" ++ padded 2 minute, rest)
    else some ("", c :: rest)

/-- A date, a time or both. -/
def date : Reader String := fun cs =>
  match fullDate cs with
  | none => partialTime cs
  | some (day, rest) =>
    match rest with
    | [] => some (day, [])
    | c :: rest' =>
      if c = 'T' ∨ c = 't' ∨ c = ' ' then
        match partialTime rest' with
        | none => some (day, rest)
        | some (time, rest') =>
          (timeOffset rest').map fun (offset, rest') => (day ++ "T" ++ time ++ offset, rest')
      else some (day, rest)

/-! ### Numbers -/

/-- The digits of a number, of which `acc` holds the first ones in reverse: single underscores may
stand between digits. -/
def digitsFrom (isDigit : Char → Bool) (acc : List Char) : Reader (List Char)
  | [] => some (acc.reverse, [])
  | c :: cs =>
    if isDigit c then digitsFrom isDigit (c :: acc) cs
    else if c = '_' then
      match cs with
      | [] => none
      | d :: rest => if isDigit d then digitsFrom isDigit (d :: acc) rest else none
    else some (acc.reverse, c :: cs)

/-- The digits of a number, at least one. -/
def digits (isDigit : Char → Bool) : Reader (List Char)
  | [] => none
  | c :: cs => if isDigit c then digitsFrom isDigit [c] cs else none

/-- The greatest signed integer of 64 bits. -/
def greatestInteger : Nat := 9223372036854775807

/-- An integer of another base after its mark. -/
def basedInteger (base : Nat) : Reader Unit := fun cs =>
  let isDigit c := (hexValue? c).any (· < base)
  (digits isDigit cs).bind fun (ds, rest) =>
    if digitsValue base ds ≤ greatestInteger then some ((), rest) else none

/-- The digits of a decimal integer: a zero stands alone. -/
def decimalDigits : Reader (List Char)
  | '0' :: cs => some (['0'], cs)
  | cs => digits Char.isDigit cs

/-- The sign of a number, if there is one. -/
def sign : List Char → Bool × List Char
  | '+' :: cs => (false, cs)
  | '-' :: cs => (true, cs)
  | cs => (false, cs)

/-- The digits after a decimal point, if there is one. -/
def fraction? : Reader (Option (List Char))
  | '.' :: cs => (digits Char.isDigit cs).map fun (ds, rest) => (some ds, rest)
  | cs => some (none, cs)

/-- An exponent, if there is one. -/
def exponent? : Reader (Option Int)
  | [] => some (none, [])
  | c :: cs =>
    if c = 'e' ∨ c = 'E' then
      let (negative, cs) := sign cs
      (digits Char.isDigit cs).map fun (ds, rest) =>
        let value := digitsValue 10 ds
        (some (if negative then -(value : Int) else value), rest)
    else some (none, c :: cs)

/-- Whether a significand times a power of ten is too large for a finite binary64 number. Powers
that are beyond doubt are not computed. -/
def isTooLarge (significand : Nat) (exponent : Int) : Bool :=
  let size : Int := (Nat.toDigits 10 significand).length + exponent
  if significand = 0 ∨ size < 300 then false
  else if 320 < size then true
  else
    !(Number.roundRatio false
      ⟨significand * Nat.pow 10 exponent.toNat, Nat.pow 10 (-exponent).toNat⟩).isFinite

/-- A decimal number after its sign. -/
def decimal (negative : Bool) : Reader Unit := fun cs => do
  let (whole, cs) ← decimalDigits cs
  let (fraction, cs) ← fraction? cs
  let (exponent, cs) ← exponent? cs
  if fraction.isNone && exponent.isNone then
    let greatest := if negative then greatestInteger + 1 else greatestInteger
    if digitsValue 10 whole ≤ greatest then some ((), cs) else none
  else
    let places := fraction.getD []
    if !negative && isTooLarge (digitsValue 10 (whole ++ places))
        (exponent.getD 0 - places.length) then none
    else some ((), cs)

/-- A number of any kind. -/
def number : Reader Unit
  | '0' :: 'x' :: cs => basedInteger 16 cs
  | '0' :: 'o' :: cs => basedInteger 8 cs
  | '0' :: 'b' :: cs => basedInteger 2 cs
  | cs =>
    match sign cs with
    | (_, 'i' :: 'n' :: 'f' :: rest) => some ((), rest)
    | (_, 'n' :: 'a' :: 'n' :: rest) => some ((), rest)
    | (negative, rest) => decimal negative rest

end StyleTree.Toml
