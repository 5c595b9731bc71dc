import StyleTree.Number.Basic

/-!
# Fixed decimal places

A number with a given count of digits after the point: the nearest such decimal to its exact value,
a tie going to the even digit.

## Main definitions

* `Number.fixedText` — a number with fixed places
-/

namespace StyleTree.Number

/-- A count of units of the last of some places, written with a point before the places. -/
def placeText (places units : Nat) : String :=
  let digits := Nat.toDigits 10 units
  let padded := List.replicate (places + 1 - digits.length) '0' ++ digits
  let whole := padded.take (padded.length - places)
  String.ofList (if places = 0 then whole else whole ++ '.' :: padded.drop (padded.length - places))

/-- A number with the given count of digits after the point. -/
def fixedText (places : Nat) : Number → String
  | .nan => "NaN"
  | .infinite negative => if negative then "-inf" else "inf"
  | .finite negative e f =>
    let r := magnitude e f
    (if negative then "-" else "") ++
      placeText places (Ratio.mk (r.num * Nat.pow 10 places) r.den).nearest

/-- One half of a unit goes to the even digit. -/
example : fixedText 1 (roundRatio false ⟨25, 4⟩) = "6.2" := by decide +kernel

/-- A third has threes, as many as there are places. -/
example : fixedText 3 (roundRatio false ⟨1, 3⟩) = "0.333" := by decide +kernel

end StyleTree.Number
