import StyleTree.Number.Shortest

/-!
# Number text

A number is written with its shortest digits. A `Layout` says where positional notation ends and
which way ties go; the two layouts in use are that of style values and that of JSON documents.

## Main definitions

* `Layout` — the decisions of a format, as one record
* `Layout.write` — a positive decimal in a layout
* `Number.styleText` — a number as a style value
* `Number.jsonText` — a number in a JSON document
* `Number.floatText` — a number in a message about a document
-/

namespace StyleTree

/-- How a decimal is laid out: positional if its point lies between `leastPoint` and
`greatestPoint`, else with an exponent. -/
structure Layout where
  /-- Which of two equally short and equally near decimals is written. -/
  tie : Tie
  /-- The least place of the point that is written positionally. -/
  leastPoint : Int
  /-- The greatest place of the point that is written positionally. -/
  greatestPoint : Int
  /-- Whether a positional integer ends in `.0`. -/
  fraction : Bool

namespace Layout

/-- Style values are positional from `1e-6` to below `1e21`, and integers have no fraction. -/
def style : Layout := ⟨.up, -5, 21, false⟩

/-- JSON numbers are positional from `1e-5` to below `1e16`, and integers end in `.0`. -/
def json : Layout := ⟨.even, -4, 16, true⟩

/-- The decimal in positional notation. -/
def positional (l : Layout) (d : Decimal) : String :=
  let point := d.point.toNat
  if d.point ≤ 0 then
    "0." ++ String.ofList (List.replicate (-d.point).toNat '0' ++ d.digits)
  else if d.digits.length ≤ point then
    String.ofList (d.digits ++ List.replicate (point - d.digits.length) '0') ++
      (if l.fraction then ".0" else "")
  else
    String.ofList (d.digits.take point) ++ "." ++ String.ofList (d.digits.drop point)

/-- The decimal with one digit before the point and a signed exponent. -/
def exponential (d : Decimal) : String :=
  let exponent := d.point - 1
  let mantissa := match d.digits with
    | first :: second :: rest => String.ofList (first :: '.' :: second :: rest)
    | digits => String.ofList digits
  mantissa ++ (if 0 ≤ exponent then "e+" else "e-") ++ toString exponent.natAbs

/-- The decimal in the layout. -/
def write (l : Layout) (d : Decimal) : String :=
  if l.leastPoint ≤ d.point ∧ d.point ≤ l.greatestPoint then l.positional d else exponential d

/-- The text of a finite number other than zero. -/
def writeFields (l : Layout) (negative : Bool) (e : Fin 2047) (f : Fin fractionCount) : String :=
  (if negative then "-" else "") ++ l.write ((Interval.ofFields e f).shortest l.tie)

end Layout

namespace Number

/-- A number as a style value: both zeros are `0`, and the other special values have names. -/
def styleText (x : Number) : String :=
  match x with
  | .nan => "NaN"
  | .infinite negative => if negative then "-Infinity" else "Infinity"
  | .finite negative e f => if x.isZero then "0" else Layout.style.writeFields negative e f

/-- A finite number in the JSON layout: an integer keeps its fraction `.0` and zero its sign. -/
def floatText (x : Number) : String :=
  match x with
  | .finite negative e f =>
    if x.isZero then if negative then "-0.0" else "0.0"
    else Layout.json.writeFields negative e f
  | _ => "null"

/-- The magnitude from which on integers in JSON documents are written like other numbers. -/
def integerLimit : Nat := 9223372036854775808

/-- A number in a JSON document: an integer below the limit is written with all its digits,
and what is not finite is `null`. -/
def jsonText (x : Number) : String :=
  match x.toInt? with
  | some i => if i.natAbs < integerLimit then toString i else x.floatText
  | none => x.floatText

end Number

end StyleTree
