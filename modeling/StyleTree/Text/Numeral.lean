/-!
# Numerals in base 36

Natural numbers written with the digits `0` to `9` and `a` to `z`, the most significant first and
without leading zeros; zero is `0`.

## Main definitions

* `Text.base36Digit` — the character of a digit
* `Text.base36` — the numeral of a number
-/

namespace StyleTree.Text

/-- The character of a digit below 36. -/
def base36Digit (d : Nat) : Char :=
  if d < 10 then Char.ofNat (48 + d) else Char.ofNat (87 + d)

/-- The digits of a number in base 36, the most significant first. -/
def base36Chars (n : Nat) : List Char :=
  if n < 36 then [base36Digit n]
  else base36Chars (n / 36) ++ [base36Digit (n % 36)]
termination_by n

/-- The numeral of a number in base 36. -/
def base36 (n : Nat) : String :=
  String.ofList (base36Chars n)

end StyleTree.Text
